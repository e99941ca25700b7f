import Storyboard.Proofs.Spec.Sound

/-!
# Storyboard.Proofs.Spec.InBounds

Specifications whose numbers are of ordinary size.  Only what a graph is made from counts, and
only of which kind it is: a number, a text, nothing.  Paths, colors and words may be anything,
and an element of no known kind may stand anywhere.

* `Specification.Accepted.inBounds` — what may be compiled is in bounds if its numbers are.
-/

namespace Storyboard

open Spec.Field

/-! ## numbers -/

namespace Value

variable {v : Value}

/-- An integer or a finite floating-point number of ordinary size. -/
def InBounds (v : Value) : Prop := v.NumberWith (|·| ≤ 10 ^ 308)

instance (v : Value) : Decidable v.InBounds :=
  inferInstanceAs (Decidable (∃ q, v.rational? = some q ∧ |q| ≤ 10 ^ 308))

/-- Nothing, or such a number. -/
def NothingOrInBounds (v : Value) : Prop := v = .null ∨ v.InBounds

theorem not_inBounds_null : ¬ InBounds .null := by
  rintro ⟨q, hq, -⟩
  cases hq

theorem InBounds.form (h : v.InBounds) : (∃ i, v = .int i) ∨ ∃ x, v = .float x := by
  obtain ⟨q, hq, -⟩ := h
  cases v with
  | int i => exact .inl ⟨i, rfl⟩
  | float x => exact .inr ⟨x, rfl⟩
  | _ => cases hq

/-- What is neither an infinity nor a NaN, and of ordinary size if it is a number at all. -/
structure IsOrdinary (v : Value) : Prop where
  finite : v.isFinite = true
  size : ∀ q ∈ v.rational?, |q| ≤ 10 ^ 308

instance (v : Value) : Decidable v.IsOrdinary :=
  decidable_of_iff (v.isFinite = true ∧ ∀ q ∈ v.rational?, |q| ≤ 10 ^ 308)
    ⟨fun h => ⟨h.1, h.2⟩, fun h => ⟨h.finite, h.size⟩⟩

end Value

namespace Spec.Field

variable {range : Range} {v : Value}

theorem InRange.inBounds (h : InRange range v) (hv : v.IsOrdinary) : v.InBounds := by
  obtain ⟨q, hq, -⟩ := h.numberWith hv.finite
  exact ⟨q, hq, hv.size q hq⟩

theorem InRangeOrNull.inBounds (h : InRangeOrNull range v) (hv : v.IsOrdinary) :
    v.NothingOrInBounds :=
  h.imp_right fun h => h.inBounds hv

theorem WholeInRange.inBounds (h : WholeInRange range v) (hv : v.IsOrdinary) : v.InBounds := by
  obtain ⟨i, rfl, -⟩ := h
  exact ⟨i, rfl, hv.size i rfl⟩

end Spec.Field

/-! ## records -/

/-- A number of pixels, or any text. -/
def Value.IsPlace (v : Value) : Prop := (∃ s, v = .text s) ∨ v.InBounds

/-- A number of pixels, or `auto`. -/
def Value.IsLength (v : Value) : Prop := v = .text "auto" ∨ v.InBounds

/-- A rate: an exact quotient, or a number. -/
def Value.IsFrameRate (v : Value) : Prop := (∃ q, v = .ratio q) ∨ v.InBounds

structure Position.InBounds (p : Position) : Prop where
  x : p.x.IsPlace
  y : p.y.IsPlace

structure Size.InBounds (s : Size) : Prop where
  width : s.width.IsLength
  height : s.height.IsLength

structure Trim.InBounds (t : Trim) : Prop where
  start : t.start.InBounds
  stop : t.stop.NothingOrInBounds

/-- When an element is on. -/
structure Window.InBounds (start duration : Value) : Prop where
  start : start.InBounds
  duration : duration.NothingOrInBounds

structure TextLayer.InBounds (l : TextLayer) : Prop where
  position : l.position.InBounds
  window : Window.InBounds l.start l.duration
  size : l.style.size.InBounds
  outline : l.style.outline.InBounds
  shadow : l.style.shadow.InBounds

structure ImageLayer.InBounds (l : ImageLayer) : Prop where
  position : l.position.InBounds
  size : l.size.InBounds
  opacity : l.opacity.InBounds
  window : Window.InBounds l.start l.duration

structure VideoLayer.InBounds (l : VideoLayer) : Prop where
  trim : l.trim.InBounds
  position : l.position.InBounds
  size : l.size.InBounds
  opacity : l.opacity.InBounds
  window : Window.InBounds l.start l.duration

structure ShapeLayer.InBounds (l : ShapeLayer) : Prop where
  size : l.size.InBounds
  position : l.position.InBounds
  opacity : l.opacity.InBounds
  window : Window.InBounds l.start l.duration

def Layer.InBounds : Layer → Prop
  | .text l => l.InBounds
  | .image l => l.InBounds
  | .video l => l.InBounds
  | .shape l => l.InBounds
  | .other _ _ => True

def Background.InBounds : Background → Prop
  | .video _ trim => trim.InBounds
  | _ => True

structure Scene.InBounds (s : Scene) : Prop where
  duration : s.duration.InBounds
  background : s.background.InBounds
  layers : ∀ l ∈ s.layers, l.InBounds
  transition : s.transition.duration.InBounds

structure Output.InBounds (o : Output) : Prop where
  width : o.width.InBounds
  height : o.height.InBounds
  fps : o.fps.IsFrameRate
  sampleRate : o.sampleRate.InBounds

structure AudioTrack.InBounds (t : AudioTrack) : Prop where
  window : Window.InBounds t.start t.duration
  volume : t.volume.InBounds
  fadeIn : t.fadeIn.InBounds
  fadeOut : t.fadeOut.InBounds
  trim : t.trim.InBounds

/-- A specification whose numbers are of ordinary size, and of the kinds that belong there.  Texts,
and what is no background or no layer, may be anything. -/
structure Specification.InBounds (spec : Specification) : Prop where
  scenes : ∀ s ∈ spec.scenes, s.InBounds
  output : spec.output.InBounds
  tracks : ∀ t ∈ spec.audio.tracks, t.InBounds

/-! ## accepted records -/

theorem Output.Accepted.inBounds {o : Output} (h : o.Accepted) (ho : ∀ v ∈ o.values, v.IsOrdinary) :
    o.InBounds where
  width := h.width.inBounds (ho _ (by simp [Output.values]))
  height := h.height.inBounds (ho _ (by simp [Output.values]))
  fps := by
    refine h.fps.imp ?_ fun h => h.inBounds (ho _ (by simp [Output.values]))
    rintro ⟨q, hq, -⟩
    exact ⟨q, hq⟩
  sampleRate := h.sampleRate.inBounds (ho _ (by simp [Output.values]))

theorem Trim.Accepted.inBounds {t : Trim} (h : t.Accepted) (ht : ∀ v ∈ t.values, v.IsOrdinary) :
    t.InBounds where
  start := h.start.inBounds (ht _ (by simp [Trim.values]))
  stop := h.stop.inBounds (ht _ (by simp [Trim.values]))

theorem Position.Accepted.inBounds {p : Position} (h : p.Accepted)
    (hp : ∀ v ∈ p.values, v.IsOrdinary) : p.InBounds where
  x := by
    refine h.x.imp ?_ fun h => h.inBounds (hp _ (by simp [Position.values]))
    rintro ⟨s, -, hs⟩
    exact ⟨s, hs⟩
  y := by
    refine h.y.imp ?_ fun h => h.inBounds (hp _ (by simp [Position.values]))
    rintro ⟨s, -, hs⟩
    exact ⟨s, hs⟩

theorem Size.Accepted.inBounds {s : Size} (h : s.Accepted) (hs : ∀ v ∈ s.values, v.IsOrdinary) :
    s.InBounds where
  width := h.width.imp_right fun h => h.inBounds (hs _ (by simp [Size.values]))
  height := h.height.imp_right fun h => h.inBounds (hs _ (by simp [Size.values]))

theorem Spec.Field.Timed.inBounds {start duration : Value} (h : Timed start duration)
    (hstart : start.IsOrdinary) (hduration : duration.IsOrdinary) :
    Window.InBounds start duration :=
  ⟨h.start.inBounds hstart, h.duration.inBounds hduration⟩

theorem Background.Accepted.inBounds {b : Background} (h : b.Accepted)
    (hb : ∀ v ∈ b.values, v.IsOrdinary) : b.InBounds := by
  cases h with
  | video hsrc htrim => exact htrim.inBounds hb
  | color => trivial
  | image => trivial
  | gradient => trivial

theorem Layer.Accepted.inBounds {l : Layer} (h : l.Accepted) (hl : ∀ v ∈ l.values, v.IsOrdinary) :
    l.InBounds := by
  cases h with
  | text h =>
    simp only [Layer.values, TextStyle.values, List.forall_mem_cons, List.forall_mem_append] at hl
    obtain ⟨hstart, hduration, ⟨⟨hsize, houtline, hshadow, -⟩, hposition⟩, -⟩ := hl
    exact ⟨h.position.inBounds hposition, h.timed.inBounds hstart hduration,
      h.style.size.inBounds hsize, h.style.outline.inBounds houtline,
      h.style.shadow.inBounds hshadow⟩
  | image h =>
    simp only [Layer.values, List.forall_mem_cons, List.forall_mem_append] at hl
    obtain ⟨hopacity, hstart, hduration, ⟨hposition, hsize⟩, -⟩ := hl
    exact ⟨h.position.inBounds hposition, h.size.inBounds hsize, h.opacity.inBounds hopacity,
      h.timed.inBounds hstart hduration⟩
  | video h =>
    simp only [Layer.values, List.forall_mem_cons, List.forall_mem_append] at hl
    obtain ⟨hopacity, hstart, hduration, ⟨htrim, hposition⟩, hsize⟩ := hl
    exact ⟨h.trim.inBounds htrim, h.position.inBounds hposition, h.size.inBounds hsize,
      h.opacity.inBounds hopacity, h.timed.inBounds hstart hduration⟩
  | shape h =>
    simp only [Layer.values, List.forall_mem_cons, List.forall_mem_append] at hl
    obtain ⟨hopacity, -, hstart, hduration, hsize, hposition⟩ := hl
    exact ⟨h.size.inBounds hsize, h.position.inBounds hposition, h.opacity.inBounds hopacity,
      h.timed.inBounds hstart hduration⟩

theorem Scene.Accepted.inBounds {s : Scene} (h : s.Accepted) (hs : ∀ v ∈ s.values, v.IsOrdinary) :
    s.InBounds := by
  simp only [Scene.values, List.forall_mem_cons, List.forall_mem_append,
    List.forall_mem_flatMap] at hs
  obtain ⟨hduration, htransition, hbackground, hlayers⟩ := hs
  exact ⟨h.duration.inBounds hduration, h.background.inBounds hbackground,
    fun l hl => (h.layers l hl).inBounds (hlayers l hl),
    h.transition.duration.inBounds htransition⟩

theorem AudioTrack.Accepted.inBounds {t : AudioTrack} (h : t.Accepted)
    (ht : ∀ v ∈ t.values, v.IsOrdinary) : t.InBounds := by
  simp only [AudioTrack.values, List.forall_mem_cons, List.forall_mem_append] at ht
  obtain ⟨⟨hstart, hduration, hvolume, hfadeIn, hfadeOut, -⟩, htrim⟩ := ht
  exact ⟨h.timed.inBounds hstart hduration, h.volume.inBounds hvolume, h.fadeIn.inBounds hfadeIn,
    h.fadeOut.inBounds hfadeOut, h.trim.inBounds htrim⟩

/-- What may be compiled is in bounds if all of its numbers are of ordinary size. -/
theorem Specification.Accepted.inBounds {s : Specification} (h : s.Accepted)
    (hs : ∀ v ∈ s.values, v.IsOrdinary) : s.InBounds := by
  simp only [Specification.values, Audio.values, List.forall_mem_append, List.forall_mem_cons,
    List.forall_mem_flatMap] at hs
  obtain ⟨⟨⟨⟨hscenes, houtput⟩, -, htracks⟩, -⟩, -⟩ := hs
  exact ⟨fun s hs => (h.scene s hs).inBounds (hscenes s hs), h.output.inBounds houtput,
    fun t ht => (h.audio.tracks t ht).inBounds (htracks t ht)⟩

end Storyboard
