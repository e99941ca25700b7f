import Storyboard.Proofs.Number.Exact
import Storyboard.Proofs.Spec.Accepted
import Storyboard.Proofs.Spec.Finite

/-!
# Storyboard.Proofs.Spec.Sound

What a specification means once it was read from data with finite numbers: every number of it
is a rational number between its bounds, every word is one of its set, and every element is of a
known kind.  The limits are spelt out in numbers here, so that nothing about how they are checked
is needed to read them; a NaN, which breaks no demand, keeps to none of them.

* `Spec.Field.InRange.numberWith` — a finite number in a range keeps to its bounds;
* `Specification.sound_of_ofValue` — a specification that is read from finite numbers is sound.
-/

namespace Storyboard

open Spec.Field

/-! ## numbers -/

namespace Value

/-- The rational number that an integer or a finite floating-point number is. -/
def rational? : Value → Option ℚ
  | .int i => some i
  | .float x => x.toRat?
  | _ => none

/-- An integer or a finite floating-point number with a property. -/
def NumberWith (p : ℚ → Prop) (v : Value) : Prop := ∃ q, v.rational? = some q ∧ p q

/-- An integer with a property. -/
def IntegerWith (p : ℤ → Prop) (v : Value) : Prop := ∃ i, v = .int i ∧ p i

/-- Nothing, or an integer or a finite floating-point number with a property. -/
def NothingOrNumberWith (p : ℚ → Prop) (v : Value) : Prop := v = .null ∨ v.NumberWith p

theorem NumberWith.imp {p p' : ℚ → Prop} {v : Value} (h : v.NumberWith p)
    (himp : ∀ q, p q → p' q) : v.NumberWith p' := by
  obtain ⟨q, hq, hp⟩ := h
  exact ⟨q, hq, himp q hp⟩

end Value

namespace Spec.Field

variable {range : Range} {v : Value}

/-- Whether a rational number is in a range. -/
structure Range.Holds (range : Range) (q : ℚ) : Prop where
  positive : range.positive = true → 0 < q
  minimum : ∀ m ∈ range.minimum, (m : ℚ) ≤ q
  maximum : ∀ m ∈ range.maximum, q ≤ m

/-- A rational number breaks no demand of the ranges it is in. -/
theorem Range.holds_of_brokenBy {q : ℚ} (h : range.brokenBy (.finite q) = none) :
    range.Holds q := by
  obtain ⟨positive, minimum, maximum⟩ := range
  unfold Range.brokenBy at h
  split at h
  · cases h
  · next hpositive =>
    split at h
    · next hminimum =>
      obtain ⟨m, hm, -⟩ := Option.any_eq_true _ _ |>.1 hminimum
      rw [hm] at h
      cases h
    · next hminimum =>
      split at h
      · next hmaximum =>
        obtain ⟨m, hm, -⟩ := Option.any_eq_true _ _ |>.1 hmaximum
        rw [hm] at h
        cases h
      · next hmaximum =>
        refine ⟨?_, ?_, ?_⟩
        · rintro rfl
          simpa [Extended.ofInt, Extended.le] using hpositive
        · rintro m rfl
          simpa [Extended.ofInt, Extended.lt] using hminimum
        · rintro m rfl
          simpa [Extended.ofInt, Extended.lt] using hmaximum

/-- A finite number is compared as the rational number that it is. -/
theorem exists_rational?_of_number? {x : Extended} (hx : number? v = some x)
    (hfinite : v.isFinite = true) : ∃ q, v.rational? = some q ∧ x = .finite q := by
  cases v with
  | int i =>
    obtain rfl := Option.some.inj hx
    exact ⟨i, rfl, rfl⟩
  | float y =>
    obtain rfl := Option.some.inj hx
    cases y with
    | finite negative m e h => exact ⟨_, rfl, rfl⟩
    | infinite negative => cases hfinite
    | nan => cases hfinite
  | _ => cases hx

/-- A finite number in a range keeps to its bounds. -/
theorem InRange.numberWith (h : InRange range v) (hfinite : v.isFinite = true) :
    v.NumberWith range.Holds := by
  obtain ⟨x, hx, hrange⟩ := h
  obtain ⟨q, hq, rfl⟩ := exists_rational?_of_number? hx hfinite
  exact ⟨q, hq, Range.holds_of_brokenBy hrange⟩

theorem InRange.pos (h : InRange .aboveZero v) (hfinite : v.isFinite = true) :
    v.NumberWith (0 < ·) :=
  (h.numberWith hfinite).imp fun _ hq => hq.positive rfl

theorem InRange.nonneg (h : InRange .fromZero v) (hfinite : v.isFinite = true) :
    v.NumberWith (0 ≤ ·) :=
  (h.numberWith hfinite).imp fun _ hq => by simpa using hq.minimum 0 rfl

theorem InRange.upTo {bound : Int} (h : InRange (.upTo bound) v) (hfinite : v.isFinite = true) :
    v.NumberWith fun q => 0 ≤ q ∧ q ≤ bound :=
  (h.numberWith hfinite).imp fun _ hq => ⟨by simpa using hq.minimum 0 rfl, hq.maximum bound rfl⟩

theorem InRangeOrNull.pos (h : InRangeOrNull .aboveZero v) (hfinite : v.isFinite = true) :
    v.NothingOrNumberWith (0 < ·) :=
  h.imp_right fun h => h.pos hfinite

theorem WholeInRange.integerWith (h : WholeInRange range v) :
    v.IntegerWith fun i => range.Holds i := by
  obtain ⟨i, rfl, hrange⟩ := h
  exact ⟨i, rfl, Range.holds_of_brokenBy hrange⟩

theorem WholeInRange.pos (h : WholeInRange .aboveZero v) : v.IntegerWith (0 < ·) := by
  obtain ⟨i, rfl, hi⟩ := h.integerWith
  exact ⟨i, rfl, by exact_mod_cast hi.positive rfl⟩

theorem WholeInRange.upTo {bound : Int} (h : WholeInRange (.upTo bound) v) :
    v.IntegerWith fun i => 0 ≤ i ∧ i ≤ bound := by
  obtain ⟨i, rfl, hi⟩ := h.integerWith
  exact ⟨i, rfl, by exact_mod_cast hi.minimum 0 rfl, by exact_mod_cast hi.maximum bound rfl⟩

/-- A keyword of the axis, or any finite number. -/
def SoundCoordinate (keywords : List String) (v : Value) : Prop :=
  (∃ s ∈ keywords, v = .text s) ∨ v.NumberWith fun _ => True

/-- `auto`, or a finite number above zero. -/
def SoundDimension (v : Value) : Prop := v = .text "auto" ∨ v.NumberWith (0 < ·)

/-- When an element is on: from zero or later, and if not to the end, then for some time. -/
structure SoundTiming (start duration : Value) : Prop where
  start : start.NumberWith (0 ≤ ·)
  duration : duration.NothingOrNumberWith (0 < ·)

theorem IsCoordinate.sound {keywords : List String} (h : IsCoordinate keywords v)
    (hfinite : v.isFinite = true) : SoundCoordinate keywords v :=
  h.imp_right fun h => (h.numberWith hfinite).imp fun _ _ => trivial

theorem IsDimension.sound (h : IsDimension v) (hfinite : v.isFinite = true) : SoundDimension v :=
  h.imp_right fun h => h.pos hfinite

theorem Timed.sound {start duration : Value} (h : Timed start duration)
    (hstart : start.isFinite = true) (hduration : duration.isFinite = true) :
    SoundTiming start duration :=
  ⟨h.start.nonneg hstart, h.duration.pos hduration⟩

end Spec.Field

/-! ## records -/

/-- How the video is encoded. -/
structure Output.Sound (o : Output) : Prop where
  width : o.width.IntegerWith (0 < ·)
  height : o.height.IntegerWith (0 < ·)
  fps : (∃ q, o.fps = .ratio q ∧ 0 < q) ∨ o.fps.NumberWith (0 < ·)
  format : o.format ∈ formats
  codec : o.codec ∈ codecs
  crf : o.crf.IntegerWith fun i => 0 ≤ i ∧ i ≤ 51
  preset : o.preset ∈ presets
  sampleRate : o.sampleRate.IntegerWith (0 < ·)

/-- Which part of a source is used. -/
structure Trim.Sound (t : Trim) : Prop where
  start : t.start.NumberWith (0 ≤ ·)
  stop : t.stop.NothingOrNumberWith (0 < ·)

/-- Where an element stands. -/
structure Position.Sound (p : Position) : Prop where
  x : SoundCoordinate columns p.x
  y : SoundCoordinate rows p.y

/-- How large an element is. -/
structure Size.Sound (s : Size) : Prop where
  width : SoundDimension s.width
  height : SoundDimension s.height

/-- How an element enters and leaves. -/
structure Animation.Sound (a : Animation) : Prop where
  enter : a.enter ∈ entrances
  exit : a.exit ∈ exits
  enterDuration : a.enterDuration.NumberWith (0 < ·)
  exitDuration : a.exitDuration.NumberWith (0 < ·)

/-- How a scene gives way to the next. -/
structure Transition.Sound (t : Transition) : Prop where
  type : t.type ∈ transitions
  duration : t.duration.NumberWith (0 < ·)

/-- What a scene is played before: a color, a medium with a path, or two colors or more. -/
inductive Background.Sound : Background → Prop
  | color {value : String} (h : Color.isColor value = true) : Sound (.color value)
  | image {src : String} (h : src ≠ "") : Sound (.image src)
  | video {src : String} {trim : Trim} (h : src ≠ "") (htrim : trim.Sound) : Sound (.video src trim)
  | gradient {colors : List String} {direction : String} (hlength : 2 ≤ colors.length)
      (hcolors : ∀ c ∈ colors, Color.isColor c = true) (hdirection : direction ∈ directions) :
      Sound (.gradient colors direction)

/-- How a text is drawn. -/
structure TextStyle.Sound (s : TextStyle) : Prop where
  font : s.font ≠ ""
  size : s.size.NumberWith (0 < ·)
  color : Color.isColor s.color = true
  outline : s.outline.NumberWith (0 ≤ ·)
  outlineColor : Color.isColor s.outlineColor = true
  shadow : s.shadow.NumberWith (0 ≤ ·)
  lineSpacing : s.lineSpacing.NumberWith fun _ => True
  align : s.align ∈ alignments

/-- A text over a scene. -/
structure TextLayer.Sound (l : TextLayer) : Prop where
  content : l.content ≠ ""
  style : l.style.Sound
  position : l.position.Sound
  timing : SoundTiming l.start l.duration
  animation : l.animation.Sound

/-- An image over a scene. -/
structure ImageLayer.Sound (l : ImageLayer) : Prop where
  src : l.src ≠ ""
  position : l.position.Sound
  size : l.size.Sound
  opacity : l.opacity.NumberWith fun q => 0 ≤ q ∧ q ≤ 1
  timing : SoundTiming l.start l.duration
  animation : l.animation.Sound

/-- A clip over a scene. -/
structure VideoLayer.Sound (l : VideoLayer) : Prop where
  src : l.src ≠ ""
  trim : l.trim.Sound
  position : l.position.Sound
  size : l.size.Sound
  opacity : l.opacity.NumberWith fun q => 0 ≤ q ∧ q ≤ 1
  timing : SoundTiming l.start l.duration

/-- A shape over a scene. -/
structure ShapeLayer.Sound (l : ShapeLayer) : Prop where
  shape : l.shape ∈ shapes
  size : l.size.Sound
  position : l.position.Sound
  color : Color.isColor l.color = true
  opacity : l.opacity.NumberWith fun q => 0 ≤ q ∧ q ≤ 1
  borderRadius : l.borderRadius.NumberWith (0 ≤ ·)
  timing : SoundTiming l.start l.duration

/-- An element over a scene or a thumbnail: of one of the four kinds. -/
inductive Layer.Sound : Layer → Prop
  | text {l : TextLayer} (h : l.Sound) : Sound (.text l)
  | image {l : ImageLayer} (h : l.Sound) : Sound (.image l)
  | video {l : VideoLayer} (h : l.Sound) : Sound (.video l)
  | shape {l : ShapeLayer} (h : l.Sound) : Sound (.shape l)

/-- A scene. -/
structure Scene.Sound (s : Scene) : Prop where
  id : s.id ≠ ""
  duration : s.duration.NumberWith (0 < ·)
  background : s.background.Sound
  layers : ∀ l ∈ s.layers, l.Sound
  transition : s.transition.Sound

/-- A sound under the video. -/
structure AudioTrack.Sound (t : AudioTrack) : Prop where
  src : t.src ≠ ""
  category : t.category ∈ categories
  timing : SoundTiming t.start t.duration
  volume : t.volume.NumberWith fun q => 0 ≤ q ∧ q ≤ 2
  fadeIn : t.fadeIn.NumberWith (0 ≤ ·)
  fadeOut : t.fadeOut.NumberWith (0 ≤ ·)
  trim : t.trim.Sound

/-- All that is heard. -/
structure Audio.Sound (a : Audio) : Prop where
  tracks : ∀ t ∈ a.tracks, t.Sound
  volume : a.master.volume.NumberWith fun q => 0 ≤ q ∧ q ≤ 2

/-- How subtitles are set. -/
structure SubtitleStyle.Sound (s : SubtitleStyle) : Prop where
  font : s.font ≠ ""
  size : s.size.NumberWith (0 < ·)
  color : Color.isColor s.color = true
  outline : s.outline.NumberWith (0 ≤ ·)
  outlineColor : Color.isColor s.outlineColor = true
  shadow : s.shadow.NumberWith (0 ≤ ·)
  position : s.position ∈ subtitlePositions
  marginV : s.marginV.NumberWith fun _ => True

/-- A subtitle: it ends after it starts, and it starts at zero or later. -/
structure Subtitle.Sound (s : Subtitle) : Prop where
  timing : s.start.NumberWith fun start => 0 ≤ start ∧ s.stop.NumberWith fun stop => start < stop
  text : s.text ≠ ""
  style : s.style.Sound

/-- What a thumbnail is made from: a frame, a color or an image with a path. -/
inductive ThumbnailSource.Sound : ThumbnailSource → Prop
  | frame (scene : String) {timestamp : Value} (h : timestamp.NumberWith (0 ≤ ·)) :
      Sound (.frame scene timestamp)
  | color {value : String} (h : Color.isColor value = true) : Sound (.custom (.color value))
  | image {src : String} (h : src ≠ "") : Sound (.custom (.image src))

/-- The picture that stands for the video. -/
structure Thumbnail.Sound (t : Thumbnail) : Prop where
  width : t.width.IntegerWith (0 < ·)
  height : t.height.IntegerWith (0 < ·)
  source : t.source.Sound
  overlays : ∀ l ∈ t.overlays, l.Sound

/-- A video: there is a scene, and scenes have ids of their own. -/
structure Specification.Sound (s : Specification) : Prop where
  scenes : s.scenes ≠ []
  ids : (s.scenes.map Scene.id).Nodup
  scene : ∀ scene ∈ s.scenes, scene.Sound
  output : s.output.Sound
  audio : s.audio.Sound
  subtitles : ∀ subtitle ∈ s.subtitles, subtitle.Sound
  thumbnail : s.thumbnail.Sound

/-! ## accepted records with finite values -/

theorem Output.Accepted.sound {o : Output} (h : o.Accepted)
    (hfinite : ∀ x ∈ o.values, x.isFinite = true) : o.Sound where
  width := h.width.pos
  height := h.height.pos
  fps := h.fps.imp_right fun h => h.pos (hfinite _ (by simp [Output.values]))
  format := h.format
  codec := h.codec
  crf := h.crf.upTo
  preset := h.preset
  sampleRate := h.sampleRate.pos

theorem Trim.Accepted.sound {t : Trim} (h : t.Accepted)
    (hfinite : ∀ x ∈ t.values, x.isFinite = true) : t.Sound where
  start := h.start.nonneg (hfinite _ (by simp [Trim.values]))
  stop := h.stop.pos (hfinite _ (by simp [Trim.values]))

theorem Position.Accepted.sound {p : Position} (h : p.Accepted)
    (hfinite : ∀ x ∈ p.values, x.isFinite = true) : p.Sound where
  x := h.x.sound (hfinite _ (by simp [Position.values]))
  y := h.y.sound (hfinite _ (by simp [Position.values]))

theorem Size.Accepted.sound {s : Size} (h : s.Accepted)
    (hfinite : ∀ x ∈ s.values, x.isFinite = true) : s.Sound where
  width := h.width.sound (hfinite _ (by simp [Size.values]))
  height := h.height.sound (hfinite _ (by simp [Size.values]))

theorem Animation.Accepted.sound {a : Animation} (h : a.Accepted)
    (hfinite : ∀ x ∈ a.values, x.isFinite = true) : a.Sound where
  enter := h.enter
  exit := h.exit
  enterDuration := h.enterDuration.pos (hfinite _ (by simp [Animation.values]))
  exitDuration := h.exitDuration.pos (hfinite _ (by simp [Animation.values]))

theorem Background.Accepted.sound {b : Background} (h : b.Accepted)
    (hfinite : ∀ x ∈ b.values, x.isFinite = true) : b.Sound := by
  cases h with
  | color hcolor => exact .color hcolor
  | image hsrc => exact .image hsrc
  | video hsrc htrim => exact .video hsrc (htrim.sound hfinite)
  | gradient hlength hcolors hdirection => exact .gradient hlength hcolors hdirection

theorem TextStyle.Accepted.sound {s : TextStyle} (h : s.Accepted)
    (hfinite : ∀ x ∈ s.values, x.isFinite = true) : s.Sound where
  font := h.font
  size := h.size.pos (hfinite _ (by simp [TextStyle.values]))
  color := h.color
  outline := h.outline.nonneg (hfinite _ (by simp [TextStyle.values]))
  outlineColor := h.outlineColor
  shadow := h.shadow.nonneg (hfinite _ (by simp [TextStyle.values]))
  lineSpacing :=
    (h.lineSpacing.numberWith (hfinite _ (by simp [TextStyle.values]))).imp fun _ _ => trivial
  align := h.align

theorem Layer.Accepted.sound {l : Layer} (h : l.Accepted)
    (hfinite : ∀ x ∈ l.values, x.isFinite = true) : l.Sound := by
  cases h with
  | text h =>
    simp only [Layer.values, List.forall_mem_cons, List.forall_mem_append] at hfinite
    obtain ⟨hstart, hduration, ⟨hstyle, hposition⟩, hanimation⟩ := hfinite
    exact .text ⟨h.content, h.style.sound hstyle, h.position.sound hposition,
      h.timed.sound hstart hduration, h.animation.sound hanimation⟩
  | image h =>
    simp only [Layer.values, List.forall_mem_cons, List.forall_mem_append] at hfinite
    obtain ⟨hopacity, hstart, hduration, ⟨hposition, hsize⟩, hanimation⟩ := hfinite
    have hbounds := h.opacity.upTo hopacity
    exact .image ⟨h.src, h.position.sound hposition, h.size.sound hsize, by simpa using hbounds,
      h.timed.sound hstart hduration, h.animation.sound hanimation⟩
  | video h =>
    simp only [Layer.values, List.forall_mem_cons, List.forall_mem_append] at hfinite
    obtain ⟨hopacity, hstart, hduration, ⟨htrim, hposition⟩, hsize⟩ := hfinite
    have hbounds := h.opacity.upTo hopacity
    exact .video ⟨h.src, h.trim.sound htrim, h.position.sound hposition, h.size.sound hsize,
      by simpa using hbounds, h.timed.sound hstart hduration⟩
  | shape h =>
    simp only [Layer.values, List.forall_mem_cons, List.forall_mem_append] at hfinite
    obtain ⟨hopacity, hborderRadius, hstart, hduration, hsize, hposition⟩ := hfinite
    have hbounds := h.opacity.upTo hopacity
    exact .shape ⟨h.shape, h.size.sound hsize, h.position.sound hposition, h.color,
      by simpa using hbounds, h.borderRadius.nonneg hborderRadius, h.timed.sound hstart hduration⟩

theorem Scene.Accepted.sound {s : Scene} (h : s.Accepted)
    (hfinite : ∀ x ∈ s.values, x.isFinite = true) : s.Sound := by
  simp only [Scene.values, List.forall_mem_cons, List.forall_mem_append,
    List.forall_mem_flatMap] at hfinite
  obtain ⟨hduration, htransition, hbackground, hlayers⟩ := hfinite
  exact ⟨h.id, h.duration.pos hduration, h.background.sound hbackground,
    fun l hl => (h.layers l hl).sound (hlayers l hl),
    ⟨h.transition.type, h.transition.duration.pos htransition⟩⟩

theorem AudioTrack.Accepted.sound {t : AudioTrack} (h : t.Accepted)
    (hfinite : ∀ x ∈ t.values, x.isFinite = true) : t.Sound := by
  simp only [AudioTrack.values, List.forall_mem_cons, List.forall_mem_append] at hfinite
  obtain ⟨⟨hstart, hduration, hvolume, hfadeIn, hfadeOut, -⟩, htrim⟩ := hfinite
  have hbounds := h.volume.upTo hvolume
  exact ⟨h.src, h.category, h.timed.sound hstart hduration, by simpa using hbounds,
    h.fadeIn.nonneg hfadeIn, h.fadeOut.nonneg hfadeOut, h.trim.sound htrim⟩

theorem Audio.Accepted.sound {a : Audio} (h : a.Accepted)
    (hfinite : ∀ x ∈ a.values, x.isFinite = true) : a.Sound := by
  simp only [Audio.values, List.forall_mem_cons, List.forall_mem_flatMap] at hfinite
  obtain ⟨hvolume, htracks⟩ := hfinite
  have hbounds := h.volume.upTo hvolume
  exact ⟨fun t ht => (h.tracks t ht).sound (htracks t ht), by simpa using hbounds⟩

theorem SubtitleStyle.Accepted.sound {s : SubtitleStyle} (h : s.Accepted)
    (hfinite : ∀ x ∈ s.values, x.isFinite = true) : s.Sound where
  font := h.font
  size := h.size.pos (hfinite _ (by simp [SubtitleStyle.values]))
  color := h.color
  outline := h.outline.nonneg (hfinite _ (by simp [SubtitleStyle.values]))
  outlineColor := h.outlineColor
  shadow := h.shadow.nonneg (hfinite _ (by simp [SubtitleStyle.values]))
  position := h.position
  marginV :=
    (h.marginV.numberWith (hfinite _ (by simp [SubtitleStyle.values]))).imp fun _ _ => trivial

theorem Subtitle.Accepted.sound {s : Subtitle} (h : s.Accepted)
    (hfinite : ∀ x ∈ s.values, x.isFinite = true) : s.Sound := by
  simp only [Subtitle.values, List.forall_mem_cons] at hfinite
  obtain ⟨hstart, hstop, hstyle⟩ := hfinite
  refine ⟨?_, h.text, h.style.sound hstyle⟩
  obtain ⟨x, hx, hxrange⟩ := h.start
  obtain ⟨y, hy, -⟩ := h.stop
  obtain ⟨start, hstart', rfl⟩ := exists_rational?_of_number? hx hstart
  obtain ⟨stop, hstop', rfl⟩ := exists_rational?_of_number? hy hstop
  have hnonneg := (Range.holds_of_brokenBy hxrange).minimum 0 rfl
  have hlater := h.later
  simp only [Subtitle.notAfter, hx, hy, Extended.le, decide_eq_false_iff_not, not_le] at hlater
  exact ⟨start, hstart', by simpa using hnonneg, stop, hstop', hlater⟩

theorem ThumbnailSource.Accepted.sound {s : ThumbnailSource} (h : s.Accepted)
    (hfinite : ∀ x ∈ s.values, x.isFinite = true) : s.Sound := by
  cases h with
  | frame scene htimestamp =>
    exact .frame scene (htimestamp.nonneg (hfinite _ (by simp [ThumbnailSource.values])))
  | color hcolor => exact .color hcolor
  | image hsrc => exact .image hsrc

theorem Thumbnail.Accepted.sound {t : Thumbnail} (h : t.Accepted)
    (hfinite : ∀ x ∈ t.values, x.isFinite = true) : t.Sound := by
  simp only [Thumbnail.values, List.forall_mem_cons, List.forall_mem_append,
    List.forall_mem_flatMap] at hfinite
  obtain ⟨-, -, hsource, hoverlays⟩ := hfinite
  exact ⟨h.width.pos, h.height.pos, h.source.sound hsource,
    fun l hl => (h.overlays l hl).sound (hoverlays l hl)⟩

theorem Specification.Accepted.sound {s : Specification} (h : s.Accepted)
    (hfinite : ∀ x ∈ s.values, x.isFinite = true) : s.Sound := by
  simp only [Specification.values, List.forall_mem_append, List.forall_mem_flatMap] at hfinite
  obtain ⟨⟨⟨⟨hscenes, houtput⟩, haudio⟩, hsubtitles⟩, hthumbnail⟩ := hfinite
  exact ⟨h.scenes, h.ids, fun s hs => (h.scene s hs).sound (hscenes s hs),
    h.output.sound houtput, h.audio.sound haudio,
    fun s hs => (h.subtitles s hs).sound (hsubtitles s hs), h.thumbnail.sound hthumbnail⟩

namespace Specification

/-- A specification that is read from finite numbers is sound. -/
theorem sound_of_ofValue {v : Value} {spec : Specification} (hv : v.NumbersFinite)
    (h : ofValue v = .ok spec) : spec.Sound :=
  (accepted_of_ofValue h).sound (finite_of_ofValue hv h)

/-- A document with two scenes, one fading into the other, a layer and a track. -/
def shortFilm : Value :=
  .map [("scenes", .list [
      .map [("id", "sky"), ("duration", 2.5), ("background", .map [("type", "gradient"),
          ("colors", .list ["#0000FF", "white"])]),
        ("transition", .map [("type", "crossfade"), ("duration", 0.5)])],
      .map [("id", "sea"), ("duration", 3), ("layers", .list [
        .map [("type", "image"), ("src", "logo.png"), ("opacity", 0.5), ("start", 1)]])]]),
    ("audio", .map [("tracks", .list [.map [("type", "bgm"), ("src", "song.mp3")]])])]

theorem numbersFinite_shortFilm : shortFilm.NumbersFinite := by
  have hlong : Value.NumbersFinite 2.5 := .float (by decide)
  simp [shortFilm, numbersFinite_half, hlong]

theorem sound_shortFilm : ∃ spec, ofValue shortFilm = .ok spec ∧ spec.Sound := by
  have hok : (ofValue shortFilm).isOk = true := by decide
  obtain ⟨spec, hspec⟩ := exists_of_isOk hok
  exact ⟨spec, hspec, sound_of_ofValue numbersFinite_shortFilm hspec⟩

end Specification

end Storyboard
