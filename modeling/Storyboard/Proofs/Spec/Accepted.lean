import Storyboard.Proofs.Result
import Storyboard.Spec.Reader

/-!
# Storyboard.Proofs.Spec.Accepted

What is known of a specification that was read.  Each record has a structure of the limits
that its fields keep to, `Accepted`; a record that is left out stands for its defaults, and
these keep to the same limits.

* `Spec.Field.…_ok` — what each check lets through;
* `Specification.accepted_of_ofValue` — a specification that is read is accepted.
-/

namespace Storyboard

namespace Spec.Field

variable {range : Range} {place : Place} {v w : Value} {s : String}

/-! ## fields -/

/-- A number in a range. -/
def InRange (range : Range) (v : Value) : Prop :=
  ∃ x, number? v = some x ∧ range.brokenBy x = none

instance (range : Range) (v : Value) : Decidable (InRange range v) :=
  decidable_of_iff ((number? v).map range.brokenBy = some none) (by simp [InRange])

/-- A number in a range, or nothing. -/
def InRangeOrNull (range : Range) (v : Value) : Prop := v = .null ∨ InRange range v

/-- A whole number in a range, as an integer. -/
def WholeInRange (range : Range) (v : Value) : Prop :=
  ∃ i : Int, v = .int i ∧ range.brokenBy (.ofInt i) = none

/-- A frame rate above zero. -/
def IsRate (v : Value) : Prop := (∃ q : Rat, v = .ratio q ∧ 0 < q) ∨ InRange .aboveZero v

/-- One of the keywords, or any number. -/
def IsCoordinate (keywords : List String) (v : Value) : Prop :=
  (∃ s ∈ keywords, v = .text s) ∨ InRange .any v

/-- `auto`, or a number above zero. -/
def IsDimension (v : Value) : Prop := v = .text "auto" ∨ InRange .aboveZero v

theorem number_ok (h : number range place v = .ok w) : InRange range w := by
  obtain ⟨rfl, hrange⟩ := number_ok_iff.1 h
  exact hrange

theorem optionalNumber_ok (h : optionalNumber range place v = .ok w) : InRangeOrNull range w := by
  unfold optionalNumber at h
  split at h
  · exact .inl (Except.ok.inj h).symm
  · exact .inr (number_ok h)

/-- A double that equals an integer breaks what the integer breaks. -/
theorem eq_of_eqv_ofDouble {i : Int} {x : Double}
    (h : (Extended.ofInt i).eqv (.ofDouble x) = true) : Extended.ofDouble x = .ofInt i := by
  unfold Extended.ofInt at h ⊢
  cases hx : Extended.ofDouble x with
  | finite q =>
    rw [hx] at h
    exact congrArg Extended.finite (of_decide_eq_true h).symm
  | infinite negative => rw [hx] at h; exact absurd h Bool.false_ne_true
  | nan => rw [hx] at h; exact absurd h Bool.false_ne_true

theorem integer_ok (h : integer range place v = .ok w) : WholeInRange range w := by
  obtain ⟨u, hu, h⟩ := bind_eq_ok.1 h
  obtain ⟨x, hx, hrange⟩ := number_ok hu
  split at h
  · next y =>
    obtain ⟨i, -, h⟩ := bind_eq_ok.1 h
    split at h
    · next hi =>
      obtain rfl := pure_eq_ok.1 h
      obtain rfl := Option.some.inj hx
      exact ⟨i, rfl, eq_of_eqv_ofDouble hi ▸ hrange⟩
    · exact absurd h throw_ne_ok
  · next hfloat =>
    obtain rfl := pure_eq_ok.1 h
    cases w with
    | int i =>
      obtain rfl := Option.some.inj hx
      exact ⟨i, rfl, hrange⟩
    | float y => exact absurd rfl (hfloat y)
    | _ => exact absurd hx (by simp [number?])

theorem rate_ok (h : rate place v = .ok w) : IsRate w := by
  unfold rate at h
  split at h
  · obtain ⟨q, -, h⟩ := bind_eq_ok.1 h
    split at h
    · exact absurd h throw_ne_ok
    · next hq =>
      obtain rfl := pure_eq_ok.1 h
      exact .inl ⟨q, rfl, Rat.not_le.1 hq⟩
  · exact .inr (number_ok h)

theorem string_ok (h : string place v = .ok s) : s ≠ "" := by
  unfold string at h
  split at h
  · split at h
    · cases h
    · next hne =>
      obtain rfl := Except.ok.inj h
      exact hne
  · cases h

theorem choice_ok {choices : List String} (h : choice choices place v = .ok s) : s ∈ choices :=
  (choice_ok_iff.1 h).2

theorem color_ok (h : color place v = .ok s) : Color.isColor s = true := by
  unfold color at h
  split at h
  · split at h
    · cases h
    · split at h
      · next hcolor =>
        obtain rfl := Except.ok.inj h
        exact hcolor
      · cases h
  · cases h

theorem coordinate_ok {keywords : List String} (h : coordinate keywords place v = .ok w) :
    IsCoordinate keywords w := by
  unfold coordinate at h
  split at h
  · obtain ⟨s, hs, h⟩ := bind_eq_ok.1 h
    exact .inl ⟨s, choice_ok hs, pure_eq_ok.1 h⟩
  · exact .inr (number_ok h)

theorem dimension_ok (h : dimension place v = .ok w) : IsDimension w := by
  unfold dimension at h
  split at h
  · exact .inl (Except.ok.inj h).symm
  · exact .inr (number_ok h)

/-- What every item that is read has, all items of a list have. -/
theorem items_ok {α : Type} {P : α → Prop} {read : Place → Value → Except Fault α}
    (hread : ∀ {place v a}, read place v = .ok a → P a) {i : Nat} {vs : List Value} {as : List α}
    (h : items read place i vs = .ok as) : ∀ a ∈ as, P a := by
  induction vs generalizing i as with
  | nil =>
    obtain rfl := Except.ok.inj h
    exact List.forall_mem_nil P
  | cons v rest ih =>
    obtain ⟨a, ha, h⟩ := bind_eq_ok.1 h
    obtain ⟨more, hmore, h⟩ := bind_eq_ok.1 h
    obtain rfl := pure_eq_ok.1 h
    exact List.forall_mem_cons.2 ⟨hread ha, ih hmore⟩

/-- As many items are read as there are. -/
theorem length_items {α : Type} {read : Place → Value → Except Fault α} {i : Nat}
    {vs : List Value} {as : List α} (h : items read place i vs = .ok as) :
    as.length = vs.length := by
  induction vs generalizing i as with
  | nil =>
    obtain rfl := Except.ok.inj h
    rfl
  | cons v rest ih =>
    obtain ⟨a, -, h⟩ := bind_eq_ok.1 h
    obtain ⟨more, hmore, h⟩ := bind_eq_ok.1 h
    obtain rfl := pure_eq_ok.1 h
    exact congrArg (· + 1) (ih hmore)

/-- When an element is on: from zero or later, and if not to the end, then for some time. -/
structure Timed (start duration : Value) : Prop where
  start : InRange .fromZero start
  duration : InRangeOrNull .aboveZero duration

theorem timing_ok {entries : Entries} {start duration : Value}
    (h : timing place entries = .ok (start, duration)) : Timed start duration := by
  obtain ⟨u, hstart, h⟩ := bind_eq_ok.1 h
  obtain ⟨w, hduration, h⟩ := bind_eq_ok.1 h
  obtain ⟨rfl, rfl⟩ := Prod.mk.inj (pure_eq_ok.1 h)
  exact ⟨number_ok hstart, optionalNumber_ok hduration⟩

/-- The seconds that animations and transitions take if nothing is said. -/
theorem inRange_half : InRange .aboveZero 0.5 := by decide

end Spec.Field

open Spec.Field

/-! ## records -/

/-- How the video may be encoded. -/
structure Output.Accepted (o : Output) : Prop where
  width : WholeInRange .aboveZero o.width
  height : WholeInRange .aboveZero o.height
  fps : IsRate o.fps
  format : o.format ∈ formats
  codec : o.codec ∈ codecs
  crf : WholeInRange (.upTo 51) o.crf
  preset : o.preset ∈ presets
  sampleRate : WholeInRange .aboveZero o.sampleRate

/-- Which part of a source may be used; its end is not compared with its start. -/
structure Trim.Accepted (t : Trim) : Prop where
  start : InRange .fromZero t.start
  stop : InRangeOrNull .aboveZero t.stop

/-- Where an element may stand. -/
structure Position.Accepted (p : Position) : Prop where
  x : IsCoordinate columns p.x
  y : IsCoordinate rows p.y

/-- How large an element may be. -/
structure Size.Accepted (s : Size) : Prop where
  width : IsDimension s.width
  height : IsDimension s.height

/-- How an element may enter and leave. -/
structure Animation.Accepted (a : Animation) : Prop where
  enter : a.enter ∈ entrances
  exit : a.exit ∈ exits
  enterDuration : InRange .aboveZero a.enterDuration
  exitDuration : InRange .aboveZero a.exitDuration

/-- How a scene may give way to the next. -/
structure Transition.Accepted (t : Transition) : Prop where
  type : t.type ∈ transitions
  duration : InRange .aboveZero t.duration

/-- What a scene may be played before. -/
inductive Background.Accepted : Background → Prop
  | color {value : String} (h : Color.isColor value = true) : Accepted (.color value)
  | image {src : String} (h : src ≠ "") : Accepted (.image src)
  | video {src : String} {trim : Trim} (h : src ≠ "") (htrim : trim.Accepted) :
      Accepted (.video src trim)
  | gradient {colors : List String} {direction : String} (hlength : 2 ≤ colors.length)
      (hcolors : ∀ c ∈ colors, Color.isColor c = true) (hdirection : direction ∈ directions) :
      Accepted (.gradient colors direction)

/-- How a text may be drawn. -/
structure TextStyle.Accepted (s : TextStyle) : Prop where
  font : s.font ≠ ""
  size : InRange .aboveZero s.size
  color : Color.isColor s.color = true
  outline : InRange .fromZero s.outline
  outlineColor : Color.isColor s.outlineColor = true
  shadow : InRange .fromZero s.shadow
  lineSpacing : InRange .any s.lineSpacing
  align : s.align ∈ alignments

/-- A text that may be drawn. -/
structure TextLayer.Accepted (l : TextLayer) : Prop where
  content : l.content ≠ ""
  style : l.style.Accepted
  position : l.position.Accepted
  timed : Timed l.start l.duration
  animation : l.animation.Accepted

/-- An image that may be laid over a scene. -/
structure ImageLayer.Accepted (l : ImageLayer) : Prop where
  src : l.src ≠ ""
  position : l.position.Accepted
  size : l.size.Accepted
  opacity : InRange (.upTo 1) l.opacity
  timed : Timed l.start l.duration
  animation : l.animation.Accepted

/-- A clip that may be laid over a scene. -/
structure VideoLayer.Accepted (l : VideoLayer) : Prop where
  src : l.src ≠ ""
  trim : l.trim.Accepted
  position : l.position.Accepted
  size : l.size.Accepted
  opacity : InRange (.upTo 1) l.opacity
  timed : Timed l.start l.duration

/-- A shape that may be drawn. -/
structure ShapeLayer.Accepted (l : ShapeLayer) : Prop where
  shape : l.shape ∈ shapes
  size : l.size.Accepted
  position : l.position.Accepted
  color : Color.isColor l.color = true
  opacity : InRange (.upTo 1) l.opacity
  borderRadius : InRange .fromZero l.borderRadius
  timed : Timed l.start l.duration

/-- An element that may be laid over a scene. -/
inductive Layer.Accepted : Layer → Prop
  | text {l : TextLayer} (h : l.Accepted) : Accepted (.text l)
  | image {l : ImageLayer} (h : l.Accepted) : Accepted (.image l)
  | video {l : VideoLayer} (h : l.Accepted) : Accepted (.video l)
  | shape {l : ShapeLayer} (h : l.Accepted) : Accepted (.shape l)

/-- A scene that may be compiled. -/
structure Scene.Accepted (s : Scene) : Prop where
  id : s.id ≠ ""
  duration : InRange .aboveZero s.duration
  background : s.background.Accepted
  layers : ∀ l ∈ s.layers, l.Accepted
  transition : s.transition.Accepted

/-- A track that may be heard. -/
structure AudioTrack.Accepted (t : AudioTrack) : Prop where
  src : t.src ≠ ""
  category : t.category ∈ categories
  timed : Timed t.start t.duration
  volume : InRange (.upTo 2) t.volume
  fadeIn : InRange .fromZero t.fadeIn
  fadeOut : InRange .fromZero t.fadeOut
  trim : t.trim.Accepted

/-- What may be heard. -/
structure Audio.Accepted (a : Audio) : Prop where
  tracks : ∀ t ∈ a.tracks, t.Accepted
  volume : InRange (.upTo 2) a.master.volume

/-- How subtitles may be set. -/
structure SubtitleStyle.Accepted (s : SubtitleStyle) : Prop where
  font : s.font ≠ ""
  size : InRange .aboveZero s.size
  color : Color.isColor s.color = true
  outline : InRange .fromZero s.outline
  outlineColor : Color.isColor s.outlineColor = true
  shadow : InRange .fromZero s.shadow
  position : s.position ∈ subtitlePositions
  marginV : InRange .any s.marginV

/-- A subtitle that may be shown. -/
structure Subtitle.Accepted (s : Subtitle) : Prop where
  start : InRange .fromZero s.start
  stop : InRange .aboveZero s.stop
  later : notAfter s.start s.stop = false
  text : s.text ≠ ""
  style : s.style.Accepted

/-- What a thumbnail may be made from. -/
inductive ThumbnailSource.Accepted : ThumbnailSource → Prop
  | frame (scene : String) {timestamp : Value} (h : InRange .fromZero timestamp) :
      Accepted (.frame scene timestamp)
  | color {value : String} (h : Color.isColor value = true) : Accepted (.custom (.color value))
  | image {src : String} (h : src ≠ "") : Accepted (.custom (.image src))

/-- A thumbnail that may be made. -/
structure Thumbnail.Accepted (t : Thumbnail) : Prop where
  width : WholeInRange .aboveZero t.width
  height : WholeInRange .aboveZero t.height
  source : t.source.Accepted
  overlays : ∀ l ∈ t.overlays, l.Accepted

/-- A specification that may be compiled: its scenes have ids of their own. -/
structure Specification.Accepted (s : Specification) : Prop where
  scenes : s.scenes ≠ []
  ids : (s.scenes.map Scene.id).Nodup
  scene : ∀ scene ∈ s.scenes, scene.Accepted
  output : s.output.Accepted
  audio : s.audio.Accepted
  subtitles : ∀ subtitle ∈ s.subtitles, subtitle.Accepted
  thumbnail : s.thumbnail.Accepted

/-! ## reading -/

namespace Output

theorem accepted_of_ofValue {v : Value} {o : Output} (h : ofValue v = .ok o) : o.Accepted := by
  obtain ⟨entries, -, h⟩ := bind_eq_ok.1 h
  obtain ⟨width, hwidth, h⟩ := bind_eq_ok.1 h
  obtain ⟨height, hheight, h⟩ := bind_eq_ok.1 h
  obtain ⟨fps, hfps, h⟩ := bind_eq_ok.1 h
  obtain ⟨format, hformat, h⟩ := bind_eq_ok.1 h
  obtain ⟨codec, hcodec, h⟩ := bind_eq_ok.1 h
  obtain ⟨crf, hcrf, h⟩ := bind_eq_ok.1 h
  obtain ⟨preset, hpreset, h⟩ := bind_eq_ok.1 h
  obtain ⟨sampleRate, hsampleRate, h⟩ := bind_eq_ok.1 h
  obtain rfl := pure_eq_ok.1 h
  exact ⟨integer_ok hwidth, integer_ok hheight, rate_ok hfps, choice_ok hformat, choice_ok hcodec,
    integer_ok hcrf, choice_ok hpreset, integer_ok hsampleRate⟩

end Output

namespace Trim

theorem accepted_default : Trim.Accepted {} :=
  ⟨by decide, .inl rfl⟩

theorem accepted_of_ofValue {place : Place} {v : Value} {t : Trim} (h : ofValue place v = .ok t) :
    t.Accepted := by
  unfold ofValue at h
  split at h
  · obtain rfl := pure_eq_ok.1 h
    exact accepted_default
  · obtain ⟨entries, -, h⟩ := bind_eq_ok.1 h
    obtain ⟨start, hstart, h⟩ := bind_eq_ok.1 h
    obtain ⟨stop, hstop, h⟩ := bind_eq_ok.1 h
    obtain rfl := pure_eq_ok.1 h
    exact ⟨number_ok hstart, optionalNumber_ok hstop⟩

end Trim

namespace Position

theorem accepted_default : Position.Accepted {} :=
  ⟨.inl ⟨"center", by decide, rfl⟩, .inl ⟨"center", by decide, rfl⟩⟩

theorem accepted_of_ofValue {place : Place} {v : Value} {p : Position}
    (h : ofValue place v = .ok p) : p.Accepted := by
  unfold ofValue at h
  split at h
  · obtain rfl := pure_eq_ok.1 h
    exact accepted_default
  · obtain ⟨entries, -, h⟩ := bind_eq_ok.1 h
    obtain ⟨x, hx, h⟩ := bind_eq_ok.1 h
    obtain ⟨y, hy, h⟩ := bind_eq_ok.1 h
    obtain rfl := pure_eq_ok.1 h
    exact ⟨coordinate_ok hx, coordinate_ok hy⟩

end Position

namespace Size

theorem accepted_default : Size.Accepted {} := ⟨.inl rfl, .inl rfl⟩

theorem accepted_of_ofValue {place : Place} {v : Value} {s : Size} (h : ofValue place v = .ok s) :
    s.Accepted := by
  unfold ofValue at h
  split at h
  · obtain rfl := pure_eq_ok.1 h
    exact accepted_default
  · obtain ⟨entries, -, h⟩ := bind_eq_ok.1 h
    obtain ⟨width, hwidth, h⟩ := bind_eq_ok.1 h
    obtain ⟨height, hheight, h⟩ := bind_eq_ok.1 h
    obtain rfl := pure_eq_ok.1 h
    exact ⟨dimension_ok hwidth, dimension_ok hheight⟩

end Size

namespace Animation

theorem accepted_default : Animation.Accepted {} :=
  ⟨by decide, by decide, inRange_half, inRange_half⟩

theorem accepted_of_ofValue {place : Place} {v : Value} {a : Animation}
    (h : ofValue place v = .ok a) : a.Accepted := by
  unfold ofValue at h
  split at h
  · obtain rfl := pure_eq_ok.1 h
    exact accepted_default
  · obtain ⟨entries, -, h⟩ := bind_eq_ok.1 h
    obtain ⟨enter, henter, h⟩ := bind_eq_ok.1 h
    obtain ⟨exit, hexit, h⟩ := bind_eq_ok.1 h
    obtain ⟨enterDuration, henterDuration, h⟩ := bind_eq_ok.1 h
    obtain ⟨exitDuration, hexitDuration, h⟩ := bind_eq_ok.1 h
    obtain rfl := pure_eq_ok.1 h
    exact ⟨choice_ok henter, choice_ok hexit, number_ok henterDuration, number_ok hexitDuration⟩

end Animation

namespace Transition

theorem accepted_default : Transition.Accepted {} := ⟨by decide, inRange_half⟩

theorem accepted_of_ofValue {place : Place} {v : Value} {t : Transition}
    (h : ofValue place v = .ok t) : t.Accepted := by
  unfold ofValue at h
  split at h
  · obtain rfl := pure_eq_ok.1 h
    exact accepted_default
  · obtain ⟨entries, -, h⟩ := bind_eq_ok.1 h
    obtain ⟨type, htype, h⟩ := bind_eq_ok.1 h
    obtain ⟨duration, hduration, h⟩ := bind_eq_ok.1 h
    obtain rfl := pure_eq_ok.1 h
    exact ⟨choice_ok htype, number_ok hduration⟩

end Transition

namespace Background

theorem accepted_default : Background.Accepted default := .color (by decide)

theorem accepted_of_ofValue {place : Place} {v : Value} {b : Background}
    (h : ofValue place v = .ok b) : b.Accepted := by
  unfold ofValue at h
  split at h
  · obtain rfl := pure_eq_ok.1 h
    exact accepted_default
  · obtain ⟨entries, -, h⟩ := bind_eq_ok.1 h
    split at h
    · obtain ⟨value, hvalue, h⟩ := bind_eq_ok.1 h
      obtain rfl := pure_eq_ok.1 h
      exact .color (color_ok hvalue)
    · obtain ⟨src, hsrc, h⟩ := bind_eq_ok.1 h
      obtain rfl := pure_eq_ok.1 h
      exact .image (string_ok hsrc)
    · obtain ⟨src, hsrc, h⟩ := bind_eq_ok.1 h
      obtain ⟨trim, htrim, h⟩ := bind_eq_ok.1 h
      obtain rfl := pure_eq_ok.1 h
      exact .video (string_ok hsrc) (Trim.accepted_of_ofValue htrim)
    · split at h
      · obtain ⟨colors, hcolors, h⟩ := bind_eq_ok.1 h
        obtain ⟨direction, hdirection, h⟩ := bind_eq_ok.1 h
        obtain rfl := pure_eq_ok.1 h
        refine .gradient ?_ (items_ok color_ok hcolors) (choice_ok hdirection)
        rw [length_items hcolors, List.length_cons, List.length_cons]
        omega
      · exact absurd h throw_ne_ok
    · obtain ⟨kind, -, h⟩ := bind_eq_ok.1 h
      exact absurd h throw_ne_ok

end Background

namespace TextStyle

theorem accepted_default : TextStyle.Accepted {} where
  font := by decide
  size := by decide
  color := by decide
  outline := by decide
  outlineColor := by decide
  shadow := by decide
  lineSpacing := ⟨_, rfl, rfl⟩
  align := by decide

theorem accepted_of_ofValue {place : Place} {v : Value} {s : TextStyle}
    (h : ofValue place v = .ok s) : s.Accepted := by
  unfold ofValue at h
  split at h
  · obtain rfl := pure_eq_ok.1 h
    exact accepted_default
  · obtain ⟨entries, -, h⟩ := bind_eq_ok.1 h
    obtain ⟨font, hfont, h⟩ := bind_eq_ok.1 h
    obtain ⟨size, hsize, h⟩ := bind_eq_ok.1 h
    obtain ⟨color, hcolor, h⟩ := bind_eq_ok.1 h
    obtain ⟨outline, houtline, h⟩ := bind_eq_ok.1 h
    obtain ⟨outlineColor, houtlineColor, h⟩ := bind_eq_ok.1 h
    obtain ⟨shadow, hshadow, h⟩ := bind_eq_ok.1 h
    obtain ⟨bold, -, h⟩ := bind_eq_ok.1 h
    obtain ⟨italic, -, h⟩ := bind_eq_ok.1 h
    obtain ⟨lineSpacing, hlineSpacing, h⟩ := bind_eq_ok.1 h
    obtain ⟨align, halign, h⟩ := bind_eq_ok.1 h
    obtain rfl := pure_eq_ok.1 h
    exact ⟨string_ok hfont, number_ok hsize, color_ok hcolor, number_ok houtline,
      color_ok houtlineColor, number_ok hshadow, number_ok hlineSpacing, choice_ok halign⟩

end TextStyle

namespace Layer

variable {place : Place} {entries : Entries} {start duration : Value}

theorem accepted_text {l : TextLayer} (htimed : Timed start duration)
    (h : TextLayer.ofEntries place entries start duration = .ok l) : l.Accepted := by
  obtain ⟨content, hcontent, h⟩ := bind_eq_ok.1 h
  obtain ⟨style, hstyle, h⟩ := bind_eq_ok.1 h
  obtain ⟨position, hposition, h⟩ := bind_eq_ok.1 h
  obtain ⟨animation, hanimation, h⟩ := bind_eq_ok.1 h
  obtain rfl := pure_eq_ok.1 h
  exact ⟨string_ok hcontent, TextStyle.accepted_of_ofValue hstyle,
    Position.accepted_of_ofValue hposition, htimed, Animation.accepted_of_ofValue hanimation⟩

theorem accepted_image {l : ImageLayer} (htimed : Timed start duration)
    (h : ImageLayer.ofEntries place entries start duration = .ok l) : l.Accepted := by
  obtain ⟨src, hsrc, h⟩ := bind_eq_ok.1 h
  obtain ⟨position, hposition, h⟩ := bind_eq_ok.1 h
  obtain ⟨size, hsize, h⟩ := bind_eq_ok.1 h
  obtain ⟨opacity, hopacity, h⟩ := bind_eq_ok.1 h
  obtain ⟨animation, hanimation, h⟩ := bind_eq_ok.1 h
  obtain rfl := pure_eq_ok.1 h
  exact ⟨string_ok hsrc, Position.accepted_of_ofValue hposition, Size.accepted_of_ofValue hsize,
    number_ok hopacity, htimed, Animation.accepted_of_ofValue hanimation⟩

theorem accepted_video {l : VideoLayer} (htimed : Timed start duration)
    (h : VideoLayer.ofEntries place entries start duration = .ok l) : l.Accepted := by
  obtain ⟨src, hsrc, h⟩ := bind_eq_ok.1 h
  obtain ⟨trim, htrim, h⟩ := bind_eq_ok.1 h
  obtain ⟨position, hposition, h⟩ := bind_eq_ok.1 h
  obtain ⟨size, hsize, h⟩ := bind_eq_ok.1 h
  obtain ⟨opacity, hopacity, h⟩ := bind_eq_ok.1 h
  obtain ⟨mute, -, h⟩ := bind_eq_ok.1 h
  obtain rfl := pure_eq_ok.1 h
  exact ⟨string_ok hsrc, Trim.accepted_of_ofValue htrim, Position.accepted_of_ofValue hposition,
    Size.accepted_of_ofValue hsize, number_ok hopacity, htimed⟩

theorem accepted_shape {l : ShapeLayer} (htimed : Timed start duration)
    (h : ShapeLayer.ofEntries place entries start duration = .ok l) : l.Accepted := by
  unfold ShapeLayer.ofEntries at h
  split at h
  · exact absurd h throw_ne_ok
  · obtain ⟨shape, hshape, h⟩ := bind_eq_ok.1 h
    obtain ⟨size, hsize, h⟩ := bind_eq_ok.1 h
    obtain ⟨position, hposition, h⟩ := bind_eq_ok.1 h
    obtain ⟨color, hcolor, h⟩ := bind_eq_ok.1 h
    obtain ⟨opacity, hopacity, h⟩ := bind_eq_ok.1 h
    obtain ⟨borderRadius, hborderRadius, h⟩ := bind_eq_ok.1 h
    obtain rfl := pure_eq_ok.1 h
    exact ⟨choice_ok hshape, Size.accepted_of_ofValue hsize,
      Position.accepted_of_ofValue hposition, color_ok hcolor, number_ok hopacity,
      number_ok hborderRadius, htimed⟩

theorem accepted_of_ofValue {v : Value} {l : Layer} (h : ofValue place v = .ok l) :
    l.Accepted := by
  obtain ⟨entries, -, h⟩ := bind_eq_ok.1 h
  obtain ⟨⟨start, duration⟩, htiming, h⟩ := bind_eq_ok.1 h
  have htimed := timing_ok htiming
  dsimp only at h
  split at h
  · obtain ⟨l, hl, h⟩ := bind_eq_ok.1 h
    obtain rfl := pure_eq_ok.1 h
    exact .text (accepted_text htimed hl)
  · obtain ⟨l, hl, h⟩ := bind_eq_ok.1 h
    obtain rfl := pure_eq_ok.1 h
    exact .image (accepted_image htimed hl)
  · obtain ⟨l, hl, h⟩ := bind_eq_ok.1 h
    obtain rfl := pure_eq_ok.1 h
    exact .video (accepted_video htimed hl)
  · obtain ⟨l, hl, h⟩ := bind_eq_ok.1 h
    obtain rfl := pure_eq_ok.1 h
    exact .shape (accepted_shape htimed hl)
  · obtain ⟨kind, -, h⟩ := bind_eq_ok.1 h
    exact absurd h throw_ne_ok

end Layer

namespace Scene

variable {place : Place} {v : Value}

theorem accepted_of_ofValue {s : Scene} (h : ofValue place v = .ok s) : s.Accepted := by
  obtain ⟨entries, -, h⟩ := bind_eq_ok.1 h
  obtain ⟨id, hid, h⟩ := bind_eq_ok.1 h
  obtain ⟨duration, hduration, h⟩ := bind_eq_ok.1 h
  obtain ⟨background, hbackground, h⟩ := bind_eq_ok.1 h
  obtain ⟨vs, -, h⟩ := bind_eq_ok.1 h
  obtain ⟨layers, hlayers, h⟩ := bind_eq_ok.1 h
  obtain ⟨transition, htransition, h⟩ := bind_eq_ok.1 h
  obtain rfl := pure_eq_ok.1 h
  exact ⟨string_ok hid, number_ok hduration, Background.accepted_of_ofValue hbackground,
    items_ok Layer.accepted_of_ofValue hlayers, Transition.accepted_of_ofValue htransition⟩

/-- Scenes that are read have ids that differ from one another and from those before. -/
theorem accepted_of_readAll {before : List String} {i : Nat} {vs : List Value}
    {scenes : List Scene} (h : readAll place before i vs = .ok scenes) :
    scenes.length = vs.length ∧ (scenes.map Scene.id).Nodup ∧
      (∀ id ∈ scenes.map Scene.id, id ∉ before) ∧ ∀ scene ∈ scenes, scene.Accepted := by
  induction vs generalizing before i scenes with
  | nil =>
    obtain rfl := Except.ok.inj h
    simp
  | cons v rest ih =>
    obtain ⟨scene, hscene, h⟩ := bind_eq_ok.1 h
    dsimp only at h
    split at h
    · exact absurd h throw_ne_ok
    · next hnew =>
      obtain ⟨more, hmore, h⟩ := bind_eq_ok.1 h
      obtain rfl := pure_eq_ok.1 h
      obtain ⟨hlength, hnodup, hbefore, haccepted⟩ := ih hmore
      refine ⟨congrArg (· + 1) hlength, ?_, ?_, ?_⟩
      · rw [List.map_cons, List.nodup_cons]
        exact ⟨fun hmem => hbefore scene.id hmem List.mem_cons_self, hnodup⟩
      · rw [List.map_cons, List.forall_mem_cons]
        exact ⟨hnew, fun id hid hmem => hbefore id hid (List.mem_cons_of_mem _ hmem)⟩
      · exact List.forall_mem_cons.2 ⟨accepted_of_ofValue hscene, haccepted⟩

end Scene

theorem AudioTrack.accepted_of_ofValue {place : Place} {v : Value} {t : AudioTrack}
    (h : ofValue place v = .ok t) : t.Accepted := by
  obtain ⟨entries, -, h⟩ := bind_eq_ok.1 h
  obtain ⟨⟨start, duration⟩, htiming, h⟩ := bind_eq_ok.1 h
  have htimed := timing_ok htiming
  dsimp only at h
  obtain ⟨id, -, h⟩ := bind_eq_ok.1 h
  obtain ⟨src, hsrc, h⟩ := bind_eq_ok.1 h
  obtain ⟨category, hcategory, h⟩ := bind_eq_ok.1 h
  obtain ⟨volume, hvolume, h⟩ := bind_eq_ok.1 h
  obtain ⟨fadeIn, hfadeIn, h⟩ := bind_eq_ok.1 h
  obtain ⟨fadeOut, hfadeOut, h⟩ := bind_eq_ok.1 h
  obtain ⟨loop, -, h⟩ := bind_eq_ok.1 h
  obtain ⟨trim, htrim, h⟩ := bind_eq_ok.1 h
  obtain rfl := pure_eq_ok.1 h
  exact ⟨string_ok hsrc, choice_ok hcategory, htimed, number_ok hvolume, number_ok hfadeIn,
    number_ok hfadeOut, Trim.accepted_of_ofValue htrim⟩

theorem Audio.accepted_of_ofValue {v : Value} {a : Audio} (h : ofValue v = .ok a) :
    a.Accepted := by
  obtain ⟨entries, -, h⟩ := bind_eq_ok.1 h
  obtain ⟨vs, -, h⟩ := bind_eq_ok.1 h
  obtain ⟨tracks, htracks, h⟩ := bind_eq_ok.1 h
  obtain ⟨master, -, h⟩ := bind_eq_ok.1 h
  obtain ⟨volume, hvolume, h⟩ := bind_eq_ok.1 h
  obtain ⟨normalize, -, h⟩ := bind_eq_ok.1 h
  obtain rfl := pure_eq_ok.1 h
  exact ⟨items_ok AudioTrack.accepted_of_ofValue htracks, number_ok hvolume⟩

namespace SubtitleStyle

theorem accepted_default : SubtitleStyle.Accepted {} where
  font := by decide
  size := by decide
  color := by decide
  outline := by decide
  outlineColor := by decide
  shadow := by decide
  position := by decide
  marginV := by decide

theorem accepted_of_ofValue {place : Place} {v : Value} {s : SubtitleStyle}
    (h : ofValue place v = .ok s) : s.Accepted := by
  unfold ofValue at h
  split at h
  · obtain rfl := pure_eq_ok.1 h
    exact accepted_default
  · obtain ⟨entries, -, h⟩ := bind_eq_ok.1 h
    obtain ⟨font, hfont, h⟩ := bind_eq_ok.1 h
    obtain ⟨size, hsize, h⟩ := bind_eq_ok.1 h
    obtain ⟨color, hcolor, h⟩ := bind_eq_ok.1 h
    obtain ⟨outline, houtline, h⟩ := bind_eq_ok.1 h
    obtain ⟨outlineColor, houtlineColor, h⟩ := bind_eq_ok.1 h
    obtain ⟨shadow, hshadow, h⟩ := bind_eq_ok.1 h
    obtain ⟨position, hposition, h⟩ := bind_eq_ok.1 h
    obtain ⟨marginV, hmarginV, h⟩ := bind_eq_ok.1 h
    obtain rfl := pure_eq_ok.1 h
    exact ⟨string_ok hfont, number_ok hsize, color_ok hcolor, number_ok houtline,
      color_ok houtlineColor, number_ok hshadow, choice_ok hposition, number_ok hmarginV⟩

end SubtitleStyle

theorem Subtitle.accepted_of_ofValue {place : Place} {v : Value} {s : Subtitle}
    (h : ofValue place v = .ok s) : s.Accepted := by
  obtain ⟨entries, -, h⟩ := bind_eq_ok.1 h
  obtain ⟨start, hstart, h⟩ := bind_eq_ok.1 h
  obtain ⟨stop, hstop, h⟩ := bind_eq_ok.1 h
  dsimp only at h
  split at h
  · exact absurd h throw_ne_ok
  · next hlater =>
    obtain ⟨text, htext, h⟩ := bind_eq_ok.1 h
    obtain ⟨style, hstyle, h⟩ := bind_eq_ok.1 h
    obtain rfl := pure_eq_ok.1 h
    exact ⟨number_ok hstart, number_ok hstop, by simpa using hlater, string_ok htext,
      SubtitleStyle.accepted_of_ofValue hstyle⟩

theorem ThumbnailSource.accepted_of_ofValue {place : Place} {v : Value} {s : ThumbnailSource}
    (h : ofValue place v = .ok s) : s.Accepted := by
  unfold ofValue at h
  split at h
  · obtain rfl := pure_eq_ok.1 h
    exact .frame "" (by decide)
  · obtain ⟨entries, -, h⟩ := bind_eq_ok.1 h
    split at h
    · split at h
      · next scene _ =>
        obtain ⟨timestamp, htimestamp, h⟩ := bind_eq_ok.1 h
        obtain rfl := pure_eq_ok.1 h
        exact .frame scene (number_ok htimestamp)
      · exact absurd h throw_ne_ok
    · obtain ⟨background, hbackground, h⟩ := bind_eq_ok.1 h
      have haccepted := Background.accepted_of_ofValue hbackground
      cases haccepted with
      | color hcolor =>
        obtain rfl := pure_eq_ok.1 h
        exact .color hcolor
      | image hsrc =>
        obtain rfl := pure_eq_ok.1 h
        exact .image hsrc
      | video _ _ => exact absurd h throw_ne_ok
      | gradient _ _ _ => exact absurd h throw_ne_ok
    · obtain ⟨kind, -, h⟩ := bind_eq_ok.1 h
      exact absurd h throw_ne_ok

theorem Thumbnail.accepted_of_ofValue {v : Value} {t : Thumbnail} (h : ofValue v = .ok t) :
    t.Accepted := by
  obtain ⟨entries, -, h⟩ := bind_eq_ok.1 h
  obtain ⟨source, hsource, h⟩ := bind_eq_ok.1 h
  obtain ⟨vs, -, h⟩ := bind_eq_ok.1 h
  obtain ⟨overlays, hoverlays, h⟩ := bind_eq_ok.1 h
  obtain ⟨enabled, -, h⟩ := bind_eq_ok.1 h
  obtain ⟨width, hwidth, h⟩ := bind_eq_ok.1 h
  obtain ⟨height, hheight, h⟩ := bind_eq_ok.1 h
  obtain rfl := pure_eq_ok.1 h
  exact ⟨integer_ok hwidth, integer_ok hheight, ThumbnailSource.accepted_of_ofValue hsource,
    items_ok Layer.accepted_of_ofValue hoverlays⟩

namespace Specification

/-- There is a scene, and scenes have ids of their own. -/
theorem accepted_of_scenesOf {entries : Entries} {scenes : List Scene}
    (h : scenesOf entries = .ok scenes) : scenes ≠ [] ∧ (scenes.map Scene.id).Nodup ∧
      ∀ scene ∈ scenes, scene.Accepted := by
  unfold scenesOf at h
  split at h
  · obtain ⟨hlength, hnodup, -, haccepted⟩ := Scene.accepted_of_readAll h
    refine ⟨?_, hnodup, haccepted⟩
    intro hnil
    rw [hnil] at hlength
    exact absurd hlength (Nat.succ_ne_zero _).symm
  · cases h

/-- A specification that is read is accepted. -/
theorem accepted_of_ofValue {v : Value} {spec : Specification} (h : ofValue v = .ok spec) :
    spec.Accepted := by
  unfold ofValue at h
  split at h
  · next entries _ =>
    obtain ⟨scenes, hscenes, h⟩ := bind_eq_ok.1 h
    obtain ⟨title, -, h⟩ := bind_eq_ok.1 h
    obtain ⟨output, houtput, h⟩ := bind_eq_ok.1 h
    obtain ⟨audio, haudio, h⟩ := bind_eq_ok.1 h
    obtain ⟨vs, -, h⟩ := bind_eq_ok.1 h
    obtain ⟨subtitles, hsubtitles, h⟩ := bind_eq_ok.1 h
    obtain ⟨thumbnail, hthumbnail, h⟩ := bind_eq_ok.1 h
    obtain ⟨version, -, h⟩ := bind_eq_ok.1 h
    obtain rfl := pure_eq_ok.1 h
    obtain ⟨hne, hnodup, hscene⟩ := accepted_of_scenesOf hscenes
    exact ⟨hne, hnodup, hscene, Output.accepted_of_ofValue houtput,
      Audio.accepted_of_ofValue haudio, items_ok Subtitle.accepted_of_ofValue hsubtitles,
      Thumbnail.accepted_of_ofValue hthumbnail⟩
  · cases h

end Specification

end Storyboard
