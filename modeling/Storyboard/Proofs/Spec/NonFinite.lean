import Storyboard.Proofs.Spec.RoundTrip

/-!
# Storyboard.Proofs.Spec.NonFinite

The numbers that are not finite and that a specification can nevertheless hold.  A range stops a
number by a comparison that comes out true, and no comparison with a NaN does; an infinity is
stopped by a bound on its own side only.  Whole numbers alone are always finite, because they are
converted.

* `….numbers` — the numbers of a record, each with what it has to keep to;
* `….Accepted.admits` — a number of a record is finite, or its range lets it through;
* `….Accepted.withNumbers` — and where a range lets a number through, it can stand;
* `Specification.nonFinite_of_ofValue` — both, for a specification that was read.
-/

namespace Storyboard

open Spec.Field

/-! ## limits -/

namespace Spec.Field

/-- What a field asks of its number: a range, and that it is whole or not. -/
inductive Limit
  | number (range : Range)
  | whole (range : Range)

/-- The floating-point numbers that are not finite and that are in a range all the same. -/
def Range.LetsThrough (r : Range) : Double → Prop
  | .nan => True
  | .infinite false => r.maximum = none
  | .infinite true => r.positive = false ∧ r.minimum = none
  | .finite .. => False

/-- The values that are no finite numbers and that a field lets through. -/
def Limit.LetsThrough : Limit → Value → Prop
  | .number r, .float x => r.LetsThrough x
  | _, _ => False

/-- A value that a field can hold, as far as it is a number: a finite one, or one that the field
lets through. -/
def Limit.Admits (l : Limit) (v : Value) : Prop := v.isFinite = true ∨ l.LetsThrough v

variable {range : Range} {v : Value}

theorem brokenBy_nan (r : Range) : r.brokenBy .nan = none := by
  cases r with
  | mk positive minimum maximum => cases minimum <;> cases maximum <;> simp [Range.brokenBy]

theorem inRange_iff_letsThrough {x : Double} (h : x.isFinite = false) :
    InRange range (.float x) ↔ range.LetsThrough x := by
  have hbroken : InRange range (.float x) ↔ range.brokenBy (.ofDouble x) = none := by
    simp [InRange, number?]
  rw [hbroken]
  obtain ⟨positive, minimum, maximum⟩ := range
  cases x with
  | finite negative significand exponent canonical => cases h
  | nan => simp [Range.LetsThrough, Extended.ofDouble, brokenBy_nan]
  | infinite negative =>
    cases negative <;> cases positive <;> cases minimum <;> cases maximum <;>
      simp [Range.brokenBy, Range.LetsThrough, Extended.ofDouble, Extended.ofInt, Extended.le,
        Extended.lt]

theorem InRange.admits (h : InRange range v) : (Limit.number range).Admits v := by
  obtain ⟨x, hx, -⟩ := id h
  cases v with
  | int i => exact .inl rfl
  | float y =>
    cases hy : y.isFinite with
    | true => exact .inl hy
    | false => exact .inr ((inRange_iff_letsThrough hy).1 h)
  | _ => cases hx

theorem InRangeOrNull.admits (h : InRangeOrNull range v) : (Limit.number range).Admits v := by
  rcases h with rfl | h
  · exact .inl rfl
  · exact h.admits

theorem WholeInRange.admits (h : WholeInRange range v) : (Limit.whole range).Admits v := by
  obtain ⟨i, rfl, -⟩ := h
  exact .inl rfl

theorem IsRate.admits (h : IsRate v) : (Limit.number .aboveZero).Admits v := by
  rcases h with ⟨q, rfl, -⟩ | h
  · exact .inl rfl
  · exact h.admits

theorem IsCoordinate.admits {keywords : List String} (h : IsCoordinate keywords v) :
    (Limit.number .any).Admits v := by
  rcases h with ⟨s, -, rfl⟩ | h
  · exact .inl rfl
  · exact h.admits

theorem IsDimension.admits (h : IsDimension v) : (Limit.number .aboveZero).Admits v := by
  rcases h with rfl | h
  · exact .inl rfl
  · exact h.admits

/-- A change of numbers by which a value stays as it is, or becomes one that is no finite number
and that its field lets through. -/
def Spoils (f : Limit → Value → Value) : Prop := ∀ l v, f l v = v ∨ l.LetsThrough (f l v)

namespace Spoils

variable {f : Limit → Value → Value}

theorem inRange_or (hf : Spoils f) (range : Range) (v : Value) :
    f (.number range) v = v ∨ InRange range (f (.number range) v) := by
  refine (hf (.number range) v).imp_right fun h => ?_
  cases hw : f (.number range) v with
  | float x =>
    rw [hw] at h
    have hx : x.isFinite = false := by
      cases x with
      | finite => exact h.elim
      | _ => rfl
    exact (inRange_iff_letsThrough hx).2 h
  | _ => rw [hw] at h; exact h.elim

theorem inRange (hf : Spoils f) (h : InRange range v) : InRange range (f (.number range) v) :=
  (hf.inRange_or range v).elim (fun heq => heq.symm ▸ h) id

theorem inRangeOrNull (hf : Spoils f) (h : InRangeOrNull range v) :
    InRangeOrNull range (f (.number range) v) :=
  (hf.inRange_or range v).elim (fun heq => heq.symm ▸ h) .inr

theorem wholeInRange (hf : Spoils f) (h : WholeInRange range v) :
    WholeInRange range (f (.whole range) v) :=
  (hf (.whole range) v).elim (fun heq => heq.symm ▸ h) False.elim

theorem isRate (hf : Spoils f) (h : IsRate v) : IsRate (f (.number .aboveZero) v) :=
  (hf.inRange_or .aboveZero v).elim (fun heq => heq.symm ▸ h) .inr

theorem isCoordinate {keywords : List String} (hf : Spoils f) (h : IsCoordinate keywords v) :
    IsCoordinate keywords (f (.number .any) v) :=
  (hf.inRange_or .any v).elim (fun heq => heq.symm ▸ h) .inr

theorem isDimension (hf : Spoils f) (h : IsDimension v) :
    IsDimension (f (.number .aboveZero) v) :=
  (hf.inRange_or .aboveZero v).elim (fun heq => heq.symm ▸ h) .inr

theorem timed {start duration : Value} (hf : Spoils f) (h : Timed start duration) :
    Timed (f (.number .fromZero) start) (f (.number .aboveZero) duration) :=
  ⟨hf.inRange h.start, hf.inRangeOrNull h.duration⟩

end Spoils

end Spec.Field

/-! ## records -/

section

variable (f : Limit → Value → Value)

/-- The numbers of a part of a source. -/
def Trim.numbers (t : Trim) : List (Limit × Value) :=
  [(.number .fromZero, t.start), (.number .aboveZero, t.stop)]

def Trim.withNumbers (t : Trim) : Trim :=
  ⟨f (.number .fromZero) t.start, f (.number .aboveZero) t.stop⟩

def Position.numbers (p : Position) : List (Limit × Value) :=
  [(.number .any, p.x), (.number .any, p.y)]

def Position.withNumbers (p : Position) : Position :=
  ⟨f (.number .any) p.x, f (.number .any) p.y⟩

def Size.numbers (s : Size) : List (Limit × Value) :=
  [(.number .aboveZero, s.width), (.number .aboveZero, s.height)]

def Size.withNumbers (s : Size) : Size :=
  ⟨f (.number .aboveZero) s.width, f (.number .aboveZero) s.height⟩

def Animation.numbers (a : Animation) : List (Limit × Value) :=
  [(.number .aboveZero, a.enterDuration), (.number .aboveZero, a.exitDuration)]

def Animation.withNumbers (a : Animation) : Animation :=
  { a with
    enterDuration := f (.number .aboveZero) a.enterDuration
    exitDuration := f (.number .aboveZero) a.exitDuration }

def Transition.withNumbers (t : Transition) : Transition :=
  { t with duration := f (.number .aboveZero) t.duration }

def Background.numbers : Background → List (Limit × Value)
  | .video _ trim => trim.numbers
  | _ => []

def Background.withNumbers : Background → Background
  | .video src trim => .video src (trim.withNumbers f)
  | b => b

def TextStyle.numbers (s : TextStyle) : List (Limit × Value) :=
  [(.number .aboveZero, s.size), (.number .fromZero, s.outline), (.number .fromZero, s.shadow),
    (.number .any, s.lineSpacing)]

def TextStyle.withNumbers (s : TextStyle) : TextStyle :=
  { s with
    size := f (.number .aboveZero) s.size
    outline := f (.number .fromZero) s.outline
    shadow := f (.number .fromZero) s.shadow
    lineSpacing := f (.number .any) s.lineSpacing }

/-- When an element is on. -/
def timingNumbers (start duration : Value) : List (Limit × Value) :=
  [(.number .fromZero, start), (.number .aboveZero, duration)]

def Layer.numbers : Layer → List (Limit × Value)
  | .text l =>
    timingNumbers l.start l.duration
      ++ (l.style.numbers ++ l.position.numbers ++ l.animation.numbers)
  | .image l =>
    (.number (.upTo 1), l.opacity) :: (timingNumbers l.start l.duration
      ++ (l.position.numbers ++ l.size.numbers ++ l.animation.numbers))
  | .video l =>
    (.number (.upTo 1), l.opacity) :: (timingNumbers l.start l.duration
      ++ (l.trim.numbers ++ l.position.numbers ++ l.size.numbers))
  | .shape l =>
    (.number (.upTo 1), l.opacity) :: (.number .fromZero, l.borderRadius)
      :: (timingNumbers l.start l.duration ++ (l.size.numbers ++ l.position.numbers))
  | .other _ _ => []

def Layer.withNumbers : Layer → Layer
  | .text l => .text { l with
      style := l.style.withNumbers f
      position := l.position.withNumbers f
      start := f (.number .fromZero) l.start
      duration := f (.number .aboveZero) l.duration
      animation := l.animation.withNumbers f }
  | .image l => .image { l with
      position := l.position.withNumbers f
      size := l.size.withNumbers f
      opacity := f (.number (.upTo 1)) l.opacity
      start := f (.number .fromZero) l.start
      duration := f (.number .aboveZero) l.duration
      animation := l.animation.withNumbers f }
  | .video l => .video { l with
      trim := l.trim.withNumbers f
      position := l.position.withNumbers f
      size := l.size.withNumbers f
      opacity := f (.number (.upTo 1)) l.opacity
      start := f (.number .fromZero) l.start
      duration := f (.number .aboveZero) l.duration }
  | .shape l => .shape { l with
      size := l.size.withNumbers f
      position := l.position.withNumbers f
      opacity := f (.number (.upTo 1)) l.opacity
      borderRadius := f (.number .fromZero) l.borderRadius
      start := f (.number .fromZero) l.start
      duration := f (.number .aboveZero) l.duration }
  | l => l

def Scene.numbers (s : Scene) : List (Limit × Value) :=
  (.number .aboveZero, s.duration) :: (.number .aboveZero, s.transition.duration)
    :: (s.background.numbers ++ s.layers.flatMap Layer.numbers)

def Scene.withNumbers (s : Scene) : Scene :=
  { s with
    duration := f (.number .aboveZero) s.duration
    background := s.background.withNumbers f
    layers := s.layers.map (Layer.withNumbers f)
    transition := s.transition.withNumbers f }

def Output.numbers (o : Output) : List (Limit × Value) :=
  [(.whole .aboveZero, o.width), (.whole .aboveZero, o.height), (.number .aboveZero, o.fps),
    (.whole (.upTo 51), o.crf), (.whole .aboveZero, o.sampleRate)]

def Output.withNumbers (o : Output) : Output :=
  { o with
    width := f (.whole .aboveZero) o.width
    height := f (.whole .aboveZero) o.height
    fps := f (.number .aboveZero) o.fps
    crf := f (.whole (.upTo 51)) o.crf
    sampleRate := f (.whole .aboveZero) o.sampleRate }

def AudioTrack.numbers (t : AudioTrack) : List (Limit × Value) :=
  timingNumbers t.start t.duration ++ [(.number (.upTo 2), t.volume),
    (.number .fromZero, t.fadeIn), (.number .fromZero, t.fadeOut)] ++ t.trim.numbers

def AudioTrack.withNumbers (t : AudioTrack) : AudioTrack :=
  { t with
    start := f (.number .fromZero) t.start
    duration := f (.number .aboveZero) t.duration
    volume := f (.number (.upTo 2)) t.volume
    fadeIn := f (.number .fromZero) t.fadeIn
    fadeOut := f (.number .fromZero) t.fadeOut
    trim := t.trim.withNumbers f }

def Audio.numbers (a : Audio) : List (Limit × Value) :=
  (.number (.upTo 2), a.master.volume) :: a.tracks.flatMap AudioTrack.numbers

def Audio.withNumbers (a : Audio) : Audio :=
  { tracks := a.tracks.map (AudioTrack.withNumbers f)
    master := { a.master with volume := f (.number (.upTo 2)) a.master.volume } }

def SubtitleStyle.numbers (s : SubtitleStyle) : List (Limit × Value) :=
  [(.number .aboveZero, s.size), (.number .fromZero, s.outline), (.number .fromZero, s.shadow),
    (.number .any, s.marginV)]

def SubtitleStyle.withNumbers (s : SubtitleStyle) : SubtitleStyle :=
  { s with
    size := f (.number .aboveZero) s.size
    outline := f (.number .fromZero) s.outline
    shadow := f (.number .fromZero) s.shadow
    marginV := f (.number .any) s.marginV }

def Subtitle.numbers (s : Subtitle) : List (Limit × Value) :=
  (.number .fromZero, s.start) :: (.number .aboveZero, s.stop) :: s.style.numbers

def Subtitle.withNumbers (s : Subtitle) : Subtitle :=
  { s with
    start := f (.number .fromZero) s.start
    stop := f (.number .aboveZero) s.stop
    style := s.style.withNumbers f }

def ThumbnailSource.numbers : ThumbnailSource → List (Limit × Value)
  | .frame _ timestamp => [(.number .fromZero, timestamp)]
  | .custom background => background.numbers

def ThumbnailSource.withNumbers : ThumbnailSource → ThumbnailSource
  | .frame scene timestamp => .frame scene (f (.number .fromZero) timestamp)
  | .custom background => .custom (background.withNumbers f)

def Thumbnail.numbers (t : Thumbnail) : List (Limit × Value) :=
  (.whole .aboveZero, t.width) :: (.whole .aboveZero, t.height)
    :: (t.source.numbers ++ t.overlays.flatMap Layer.numbers)

def Thumbnail.withNumbers (t : Thumbnail) : Thumbnail :=
  { t with
    width := f (.whole .aboveZero) t.width
    height := f (.whole .aboveZero) t.height
    source := t.source.withNumbers f
    overlays := t.overlays.map (Layer.withNumbers f) }

/-- All numbers of a specification, each with what it has to keep to. -/
def Specification.numbers (s : Specification) : List (Limit × Value) :=
  s.scenes.flatMap Scene.numbers ++ s.output.numbers ++ s.audio.numbers
    ++ s.subtitles.flatMap Subtitle.numbers ++ s.thumbnail.numbers

/-- A specification with other numbers in all fields, at any depth. -/
def Specification.withNumbers (s : Specification) : Specification :=
  { s with
    scenes := s.scenes.map (Scene.withNumbers f)
    output := s.output.withNumbers f
    audio := s.audio.withNumbers f
    subtitles := s.subtitles.map (Subtitle.withNumbers f)
    thumbnail := s.thumbnail.withNumbers f }

end

/-! ## which numbers there are -/

theorem Background.map_snd_numbers (b : Background) : b.numbers.map Prod.snd = b.values := by
  cases b <;> rfl

theorem Layer.map_snd_numbers (l : Layer) : l.numbers.map Prod.snd = l.values := by
  cases l <;> rfl

theorem Scene.map_snd_numbers (s : Scene) : s.numbers.map Prod.snd = s.values := by
  simp [numbers, values, List.map_flatMap, Background.map_snd_numbers, Layer.map_snd_numbers]

theorem Audio.map_snd_numbers (a : Audio) : a.numbers.map Prod.snd = a.values := by
  have htrack (t : AudioTrack) : t.numbers.map Prod.snd = t.values := rfl
  simp [numbers, values, List.map_flatMap, htrack]

theorem Thumbnail.map_snd_numbers (t : Thumbnail) : t.numbers.map Prod.snd = t.values := by
  have hsource : t.source.numbers.map Prod.snd = t.source.values := by
    cases t.source with
    | frame scene timestamp => rfl
    | custom background => exact background.map_snd_numbers
  simp [numbers, values, List.map_flatMap, hsource, Layer.map_snd_numbers]

/-- The numbers of a specification are all its values. -/
theorem Specification.map_snd_numbers (s : Specification) :
    s.numbers.map Prod.snd = s.values := by
  have houtput : s.output.numbers.map Prod.snd = s.output.values := rfl
  have hsubtitle (t : Subtitle) : t.numbers.map Prod.snd = t.values := rfl
  simp [numbers, values, List.map_flatMap, Scene.map_snd_numbers, houtput,
    Audio.map_snd_numbers, hsubtitle, Thumbnail.map_snd_numbers]

/-! ## what they can be -/

/-- All numbers are what their fields can hold. -/
def AllAdmitted (numbers : List (Limit × Value)) : Prop := ∀ n ∈ numbers, n.1.Admits n.2

section

variable {ns ms : List (Limit × Value)}

@[simp] theorem allAdmitted_nil : AllAdmitted [] := List.forall_mem_nil _

@[simp] theorem allAdmitted_cons {l : Limit} {v : Value} :
    AllAdmitted ((l, v) :: ns) ↔ l.Admits v ∧ AllAdmitted ns := List.forall_mem_cons

@[simp] theorem allAdmitted_append :
    AllAdmitted (ns ++ ms) ↔ AllAdmitted ns ∧ AllAdmitted ms := List.forall_mem_append

@[simp] theorem allAdmitted_flatMap {α : Type} {as : List α} {g : α → List (Limit × Value)} :
    AllAdmitted (as.flatMap g) ↔ ∀ a ∈ as, AllAdmitted (g a) := List.forall_mem_flatMap

theorem Spec.Field.Timed.admits {start duration : Value} (h : Timed start duration) :
    AllAdmitted (timingNumbers start duration) := by
  simp [timingNumbers, h.start.admits, h.duration.admits]

theorem Trim.Accepted.admits {t : Trim} (h : t.Accepted) : AllAdmitted t.numbers := by
  simp [numbers, h.start.admits, h.stop.admits]

theorem Position.Accepted.admits {p : Position} (h : p.Accepted) : AllAdmitted p.numbers := by
  simp [numbers, h.x.admits, h.y.admits]

theorem Size.Accepted.admits {s : Size} (h : s.Accepted) : AllAdmitted s.numbers := by
  simp [numbers, h.width.admits, h.height.admits]

theorem Animation.Accepted.admits {a : Animation} (h : a.Accepted) : AllAdmitted a.numbers := by
  simp [numbers, h.enterDuration.admits, h.exitDuration.admits]

theorem Background.Accepted.admits {b : Background} (h : b.Accepted) : AllAdmitted b.numbers := by
  cases h with
  | video _ htrim => exact htrim.admits
  | _ => exact allAdmitted_nil

theorem TextStyle.Accepted.admits {s : TextStyle} (h : s.Accepted) : AllAdmitted s.numbers := by
  simp [numbers, h.size.admits, h.outline.admits, h.shadow.admits, h.lineSpacing.admits]

theorem Layer.Accepted.admits {l : Layer} (h : l.Accepted) : AllAdmitted l.numbers := by
  cases h with
  | text h =>
    simp [numbers, h.timed.admits, h.style.admits, h.position.admits, h.animation.admits]
  | image h =>
    simp [numbers, h.opacity.admits, h.timed.admits, h.position.admits, h.size.admits,
      h.animation.admits]
  | video h =>
    simp [numbers, h.opacity.admits, h.timed.admits, h.trim.admits, h.position.admits,
      h.size.admits]
  | shape h =>
    simp [numbers, h.opacity.admits, h.borderRadius.admits, h.timed.admits, h.size.admits,
      h.position.admits]

theorem Scene.Accepted.admits {s : Scene} (h : s.Accepted) : AllAdmitted s.numbers := by
  have hlayers : ∀ l ∈ s.layers, AllAdmitted l.numbers := fun l hl => (h.layers l hl).admits
  simpa [numbers, h.duration.admits, h.transition.duration.admits, h.background.admits]
    using hlayers

theorem Output.Accepted.admits {o : Output} (h : o.Accepted) : AllAdmitted o.numbers := by
  simp [numbers, h.width.admits, h.height.admits, h.fps.admits, h.crf.admits,
    h.sampleRate.admits]

theorem AudioTrack.Accepted.admits {t : AudioTrack} (h : t.Accepted) : AllAdmitted t.numbers := by
  simp [numbers, h.timed.admits, h.volume.admits, h.fadeIn.admits, h.fadeOut.admits,
    h.trim.admits]

theorem Audio.Accepted.admits {a : Audio} (h : a.Accepted) : AllAdmitted a.numbers := by
  have htracks : ∀ t ∈ a.tracks, AllAdmitted t.numbers := fun t ht => (h.tracks t ht).admits
  simpa [numbers, h.volume.admits] using htracks

theorem Subtitle.Accepted.admits {s : Subtitle} (h : s.Accepted) : AllAdmitted s.numbers := by
  simp [numbers, SubtitleStyle.numbers, h.start.admits, h.stop.admits, h.style.size.admits,
    h.style.outline.admits, h.style.shadow.admits, h.style.marginV.admits]

theorem ThumbnailSource.Accepted.admits {s : ThumbnailSource} (h : s.Accepted) :
    AllAdmitted s.numbers := by
  cases h with
  | frame scene h => simp [numbers, h.admits]
  | _ => exact allAdmitted_nil

theorem Thumbnail.Accepted.admits {t : Thumbnail} (h : t.Accepted) : AllAdmitted t.numbers := by
  have hoverlays : ∀ l ∈ t.overlays, AllAdmitted l.numbers := fun l hl => (h.overlays l hl).admits
  simpa [numbers, h.width.admits, h.height.admits, h.source.admits] using hoverlays

/-- Every number of an accepted specification is finite, or its field lets it through. -/
theorem Specification.Accepted.admits {s : Specification} (h : s.Accepted) :
    AllAdmitted s.numbers := by
  have hscenes : ∀ scene ∈ s.scenes, AllAdmitted scene.numbers :=
    fun scene hscene => (h.scene scene hscene).admits
  have hsubtitles : ∀ t ∈ s.subtitles, AllAdmitted t.numbers :=
    fun t ht => (h.subtitles t ht).admits
  simpa [numbers, h.output.admits, h.audio.admits, h.thumbnail.admits]
    using And.intro hscenes hsubtitles

end

/-! ## where they can stand -/

section

variable {f : Limit → Value → Value}

theorem Trim.Accepted.withNumbers {t : Trim} (h : t.Accepted) (hf : Spoils f) :
    (t.withNumbers f).Accepted :=
  ⟨hf.inRange h.start, hf.inRangeOrNull h.stop⟩

theorem Position.Accepted.withNumbers {p : Position} (h : p.Accepted) (hf : Spoils f) :
    (p.withNumbers f).Accepted :=
  ⟨hf.isCoordinate h.x, hf.isCoordinate h.y⟩

theorem Size.Accepted.withNumbers {s : Size} (h : s.Accepted) (hf : Spoils f) :
    (s.withNumbers f).Accepted :=
  ⟨hf.isDimension h.width, hf.isDimension h.height⟩

theorem Animation.Accepted.withNumbers {a : Animation} (h : a.Accepted) (hf : Spoils f) :
    (a.withNumbers f).Accepted :=
  ⟨h.enter, h.exit, hf.inRange h.enterDuration, hf.inRange h.exitDuration⟩

theorem Background.Accepted.withNumbers {b : Background} (h : b.Accepted) (hf : Spoils f) :
    (b.withNumbers f).Accepted := by
  cases h with
  | color h => exact .color h
  | image h => exact .image h
  | video h htrim => exact .video h (htrim.withNumbers hf)
  | gradient hlength hcolors hdirection => exact .gradient hlength hcolors hdirection

theorem TextStyle.Accepted.withNumbers {s : TextStyle} (h : s.Accepted) (hf : Spoils f) :
    (s.withNumbers f).Accepted :=
  { h with
    size := hf.inRange h.size
    outline := hf.inRange h.outline
    shadow := hf.inRange h.shadow
    lineSpacing := hf.inRange h.lineSpacing }

theorem Layer.Accepted.withNumbers {l : Layer} (h : l.Accepted) (hf : Spoils f) :
    (l.withNumbers f).Accepted := by
  cases h with
  | text h =>
    exact .text { h with
      style := h.style.withNumbers hf
      position := h.position.withNumbers hf
      timed := hf.timed h.timed
      animation := h.animation.withNumbers hf }
  | image h =>
    exact .image { h with
      position := h.position.withNumbers hf
      size := h.size.withNumbers hf
      opacity := hf.inRange h.opacity
      timed := hf.timed h.timed
      animation := h.animation.withNumbers hf }
  | video h =>
    exact .video { h with
      trim := h.trim.withNumbers hf
      position := h.position.withNumbers hf
      size := h.size.withNumbers hf
      opacity := hf.inRange h.opacity
      timed := hf.timed h.timed }
  | shape h =>
    exact .shape { h with
      size := h.size.withNumbers hf
      position := h.position.withNumbers hf
      opacity := hf.inRange h.opacity
      borderRadius := hf.inRange h.borderRadius
      timed := hf.timed h.timed }

theorem Scene.Accepted.withNumbers {s : Scene} (h : s.Accepted) (hf : Spoils f) :
    (s.withNumbers f).Accepted where
  id := h.id
  duration := hf.inRange h.duration
  background := h.background.withNumbers hf
  layers := List.forall_mem_map.2 fun l hl => (h.layers l hl).withNumbers hf
  transition := ⟨h.transition.type, hf.inRange h.transition.duration⟩

theorem Output.Accepted.withNumbers {o : Output} (h : o.Accepted) (hf : Spoils f) :
    (o.withNumbers f).Accepted :=
  { h with
    width := hf.wholeInRange h.width
    height := hf.wholeInRange h.height
    fps := hf.isRate h.fps
    crf := hf.wholeInRange h.crf
    sampleRate := hf.wholeInRange h.sampleRate }

theorem AudioTrack.Accepted.withNumbers {t : AudioTrack} (h : t.Accepted) (hf : Spoils f) :
    (t.withNumbers f).Accepted :=
  { h with
    timed := hf.timed h.timed
    volume := hf.inRange h.volume
    fadeIn := hf.inRange h.fadeIn
    fadeOut := hf.inRange h.fadeOut
    trim := h.trim.withNumbers hf }

theorem Audio.Accepted.withNumbers {a : Audio} (h : a.Accepted) (hf : Spoils f) :
    (a.withNumbers f).Accepted where
  tracks := List.forall_mem_map.2 fun t ht => (h.tracks t ht).withNumbers hf
  volume := hf.inRange h.volume

theorem SubtitleStyle.Accepted.withNumbers {s : SubtitleStyle} (h : s.Accepted) (hf : Spoils f) :
    (s.withNumbers f).Accepted :=
  { h with
    size := hf.inRange h.size
    outline := hf.inRange h.outline
    shadow := hf.inRange h.shadow
    marginV := hf.inRange h.marginV }

theorem Subtitle.Accepted.withNumbers {s : Subtitle} (h : s.Accepted) (hf : Spoils f)
    (hlater : notAfter (s.withNumbers f).start (s.withNumbers f).stop = false) :
    (s.withNumbers f).Accepted where
  start := hf.inRange h.start
  stop := hf.inRange h.stop
  later := hlater
  text := h.text
  style := h.style.withNumbers hf

theorem ThumbnailSource.Accepted.withNumbers {s : ThumbnailSource} (h : s.Accepted)
    (hf : Spoils f) : (s.withNumbers f).Accepted := by
  cases h with
  | frame scene h => exact .frame scene (hf.inRange h)
  | color h => exact .color h
  | image h => exact .image h

theorem Thumbnail.Accepted.withNumbers {t : Thumbnail} (h : t.Accepted) (hf : Spoils f) :
    (t.withNumbers f).Accepted where
  width := hf.wholeInRange h.width
  height := hf.wholeInRange h.height
  source := h.source.withNumbers hf
  overlays := List.forall_mem_map.2 fun l hl => (h.overlays l hl).withNumbers hf

end

namespace Specification

variable {spec : Specification} {f : Limit → Value → Value}

/-- Where fields let numbers through, these can stand, as long as no subtitle ends before it
starts. -/
theorem Accepted.withNumbers (h : spec.Accepted) (hf : Spoils f)
    (hlater : ∀ t ∈ (spec.withNumbers f).subtitles, Subtitle.notAfter t.start t.stop = false) :
    (spec.withNumbers f).Accepted where
  scenes := fun hnil => h.scenes (List.map_eq_nil_iff.1 hnil)
  ids := by
    have hids :
        (spec.scenes.map (Scene.withNumbers f)).map Scene.id = spec.scenes.map Scene.id := by
      rw [List.map_map]
      rfl
    exact hids.symm ▸ h.ids
  scene := List.forall_mem_map.2 fun s hs => (h.scene s hs).withNumbers hf
  output := h.output.withNumbers hf
  audio := h.audio.withNumbers hf
  subtitles := List.forall_mem_map.2 fun t ht =>
    (h.subtitles t ht).withNumbers hf (hlater _ (List.mem_map_of_mem ht))
  thumbnail := h.thumbnail.withNumbers hf

theorem isWritable_withNumbers (hf : Spoils f) (h : spec.output.fps.IsWritable) :
    (spec.withNumbers f).output.fps.IsWritable := by
  show (f (.number .aboveZero) spec.output.fps).IsWritable
  rcases hf (.number .aboveZero) spec.output.fps with heq | hthrough
  · rwa [heq]
  · intro q hq
    rw [hq] at hthrough
    exact hthrough.elim

/-- A specification that was read from finite numbers has finite numbers.  In general each of its
numbers is finite or is let through by its field, which for whole numbers is never; and whatever
the fields let through can in fact stand there, in any number of fields at once. -/
theorem nonFinite_of_ofValue {data : Value} (h : ofValue data = .ok spec) :
    (data.NumbersFinite → ∀ v ∈ spec.values, v.isFinite = true) ∧
    (∀ v ∈ spec.values, ∃ l, (l, v) ∈ spec.numbers ∧ (v.isFinite = true ∨ l.LetsThrough v)) ∧
    (spec.output.fps.IsWritable → ∀ f, (∀ l v, f l v = v ∨ l.LetsThrough (f l v)) →
      (∀ t ∈ (spec.withNumbers f).subtitles, Subtitle.notAfter t.start t.stop = false) →
      ∃ data', ofValue data' = .ok (spec.withNumbers f)) := by
  have haccepted := accepted_of_ofValue h
  refine ⟨fun hdata => finite_of_ofValue hdata h, ?_, ?_⟩
  · intro v hv
    rw [← map_snd_numbers] at hv
    obtain ⟨⟨l, v⟩, hmem, rfl⟩ := List.mem_map.1 hv
    exact ⟨l, hmem, haccepted.admits _ hmem⟩
  · intro hrate f hf hlater
    obtain ⟨v, hv⟩ := exists_toValue (isWritable_withNumbers hf hrate)
    exact ⟨v, (haccepted.withNumbers hf hlater).ofValue_toValue hv⟩

/-- A NaN in place of every number that need not be whole. -/
def withoutNumber : Limit → Value → Value
  | .number _, _ => .float .nan
  | .whole _, v => v

theorem nonFinite_coastFilm : ∃ spec data, ofValue coastFilm = .ok spec ∧
    ofValue data = .ok (spec.withNumbers withoutNumber) := by
  obtain ⟨spec, hspec, hrate⟩ := exists_coastFilm
  have hf : ∀ l v, withoutNumber l v = v ∨ l.LetsThrough (withoutNumber l v) := by
    rintro (range | range) v
    · exact .inr trivial
    · exact .inl rfl
  have hlater : ∀ t ∈ (spec.withNumbers withoutNumber).subtitles,
      Subtitle.notAfter t.start t.stop = false :=
    List.forall_mem_map.2 fun t _ => rfl
  obtain ⟨data, hdata⟩ :=
    (nonFinite_of_ofValue hspec).2.2 hrate withoutNumber hf hlater
  exact ⟨spec, data, hspec, hdata⟩

/-- A document with one scene of a duration. -/
def stillFilm (duration : Value) : Value :=
  .map [("scenes", .list [.map [("id", "sky"), ("duration", duration)]])]

/-- A scene whose duration is no number is read. -/
theorem nonFinite_stillFilm : ∃ spec, ofValue (stillFilm (.float .nan)) = .ok spec ∧
    ∃ v ∈ spec.values, v.isFinite = false := by
  have htest : (ofValue (stillFilm (.float .nan))).toOption.any (fun spec =>
      spec.values.any fun v => !v.isFinite) = true := by
    decide +kernel
  obtain ⟨spec, hspec, htest⟩ := exists_of_any htest
  exact ⟨spec, hspec, by simpa using htest⟩

end Specification

end Storyboard
