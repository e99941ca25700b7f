import Storyboard.Proofs.Color
import Storyboard.Proofs.Compile.Kept
import Storyboard.Proofs.Spec.RoundTrip

/-!
# Storyboard.Proofs.Compile.Colors

The colors that reach filter text.  A filter that makes a stream of one color, draws a text or
draws a shape names its colors in options; every other filter is without color.  All colors in a
compiled graph have passed the check of colors, which lets a little more through than is meant:

* `Specification.tinted_compile` — every color of a compiled graph has passed;
* `Specification.colors_compile` — of which forms such a color is.
-/

namespace Storyboard

open Spec.Field

/-! ## the values of options -/

namespace FilterOption

/-- The values of the options that have one of the given names. -/
def valuesOf (names : List String) (os : List FilterOption) : List String :=
  (os.filter fun o => o.name?.any (· ∈ names)).map FilterOption.value

variable {names : List String}

@[simp] theorem valuesOf_nil : valuesOf names [] = [] := rfl

@[simp] theorem valuesOf_named (name value : String) (os : List FilterOption) :
    valuesOf names (named name value :: os) =
      if name ∈ names then value :: valuesOf names os else valuesOf names os := by
  by_cases h : name ∈ names <;> simp [valuesOf, named, h]

@[simp] theorem valuesOf_append (os ps : List FilterOption) :
    valuesOf names (os ++ ps) = valuesOf names os ++ valuesOf names ps := by
  simp [valuesOf]

theorem valuesOf_fontOption (font base : String) (os : List FilterOption)
    (hfont : "font" ∉ names) (hfile : "fontfile" ∉ names) :
    valuesOf names (fontOption font base :: os) = valuesOf names os := by
  unfold fontOption
  split <;> simp [hfont, hfile]

theorem valuesOf_window (w : Option Window) (h : "enable" ∉ names) :
    valuesOf names (Window.options w) = [] := by
  cases w with
  | none => rfl
  | some w => simp [Window.options, h]

theorem valuesOf_shadow (shadowed : Bool) (shadow : String) (hx : "shadowx" ∉ names)
    (hy : "shadowy" ∉ names) : valuesOf names (TextLayer.shadowOptions shadowed shadow) = [] := by
  cases shadowed <;> simp [TextLayer.shadowOptions, hx, hy]

end FilterOption

/-! ## the colors of a filter -/

/-- A color without the opacity after it. -/
def Color.beforeOpacity (s : String) : String :=
  String.ofList (s.toList.takeWhile (· ≠ '@'))

/-- An accepted color has no opacity after it. -/
theorem Color.beforeOpacity_append {s : String} (h : isColor s = true) (opacity : String) :
    beforeOpacity (s ++ "@" ++ opacity) = s := by
  have hall : ∀ c ∈ s.toList, decide (c ≠ '@') = true := by
    intro c hc
    refine decide_eq_true ?_
    rintro rfl
    exact absurd (inColor_of_isColor h _ hc) (by decide)
  have htext : (s ++ "@" ++ opacity).toList = s.toList ++ '@' :: opacity.toList := by simp
  rw [beforeOpacity, htext, List.takeWhile_append_of_pos hall,
    List.takeWhile_cons_of_neg (by simp), List.append_nil, String.ofList_toList]

namespace Filter

/-- The colors that a filter draws in. -/
def colors : Filter → List String
  | .call name os =>
    if name = "color" then FilterOption.valuesOf ["c"] os
    else if name = "drawtext" then FilterOption.valuesOf ["fontcolor", "bordercolor"] os
    else if name = "drawbox" then (FilterOption.valuesOf ["color"] os).map Color.beforeOpacity
    else []
  | .literal _ => []

/-- A filter whose colors have all passed the check. -/
def Tinted (f : Filter) : Prop := ∀ s ∈ f.colors, Color.isColor s = true

theorem colors_color (os : List FilterOption) :
    (call "color" os).colors = FilterOption.valuesOf ["c"] os := rfl

theorem colors_drawtext (os : List FilterOption) :
    (call "drawtext" os).colors = FilterOption.valuesOf ["fontcolor", "bordercolor"] os := rfl

theorem colors_drawbox (os : List FilterOption) :
    (call "drawbox" os).colors
      = (FilterOption.valuesOf ["color"] os).map Color.beforeOpacity := rfl

/-- A filter of any other name is without color. -/
theorem tinted_call {name : String} (os : List FilterOption)
    (h : name ∉ ["color", "drawtext", "drawbox"]) : (call name os).Tinted := by
  simp only [List.mem_cons, List.not_mem_nil, or_false, not_or] at h
  have hcolors : (call name os).colors = [] := by
    rw [colors, if_neg h.1, if_neg h.2.1, if_neg h.2.2]
  rw [Tinted, hcolors]
  exact List.forall_mem_nil _

end Filter

/-! ## layers -/

/-- A text is drawn in its own color and in that of its outline. -/
theorem TextLayer.tinted_filter {layer : TextLayer} {base : String} {f : Filter}
    (hlayer : layer.Accepted) (h : layer.filter base = .ok f) : f.Tinted := by
  obtain ⟨size, outline, shadow, x, y, shadowed, window, -, -, -, -, -, rfl⟩ := filter_forms h
  have hcolors : Filter.colors (.call "drawtext"
      (.named "text" ("'" ++ Graph.Escape.contentText layer.content ++ "'") ::
        layer.styleOptions base size outline shadow x y shadowed window))
      = [layer.style.color, layer.style.outlineColor] := by
    simp [Filter.colors_drawtext, styleOptions, FilterOption.valuesOf_fontOption,
      FilterOption.valuesOf_shadow, FilterOption.valuesOf_window]
  rw [Filter.Tinted, hcolors]
  simp [hlayer.style.color, hlayer.style.outlineColor]

/-- A shape is filled with its color. -/
theorem ShapeLayer.tinted_filter {layer : ShapeLayer} {f : Filter} (hlayer : layer.Accepted)
    (h : layer.filter = .ok f) : f.Tinted := by
  obtain ⟨x, y, opacity, width, height, window, -, -, -, -, -, rfl⟩ := filter_forms h
  have hcolors : Filter.colors (.call "drawbox" ([.named "x" x, .named "y" y, .named "w" width,
      .named "h" height, .named "color" (layer.color ++ "@" ++ opacity), .named "t" "fill"]
        ++ Window.options window)) = [layer.color] := by
    simp [Filter.colors_drawbox, FilterOption.valuesOf_window,
      Color.beforeOpacity_append hlayer.color]
  rw [Filter.Tinted, hcolors]
  simp [hlayer.color]

namespace Scene

variable {f : Filter} {fs : List Filter}

theorem tinted_toPixelFormat : toPixelFormat.Tinted := Filter.tinted_call _ (by decide)

theorem tinted_fromZero : fromZero.Tinted := Filter.tinted_call _ (by decide)

theorem tinted_cut (start stop : Decimal) : (cut start stop).Tinted :=
  Filter.tinted_call _ (by decide)

theorem tinted_fromStart {start : Value} (h : fromStart start = .ok f) : f.Tinted := by
  obtain rfl | ⟨d, rfl⟩ := fromStart_forms h
  · exact tinted_fromZero
  · exact Filter.tinted_call _ (by decide)

theorem tinted_scale {size : Size} (h : size.scale = .ok f) : f.Tinted := by
  obtain ⟨w, t, -, -, rfl⟩ := Size.scale_eq_ok.1 h
  exact Filter.tinted_call _ (by decide)

theorem tinted_opacityFilters {opacity : Value} (h : opacityFilters opacity = .ok fs) :
    ∀ f ∈ fs, f.Tinted := by
  obtain rfl | ⟨a, -, rfl⟩ := opacityFilters_forms h
  · exact List.forall_mem_cons.2 ⟨tinted_toPixelFormat, List.forall_mem_nil _⟩
  · simp only [List.forall_mem_cons]
    exact ⟨Filter.tinted_call _ (by decide), Filter.tinted_call _ (by decide),
      tinted_toPixelFormat, List.forall_mem_nil _⟩

theorem tinted_imageFilters {layer : ImageLayer} (h : imageFilters layer = .ok fs) :
    ∀ f ∈ fs, f.Tinted := by
  obtain ⟨scaled, shown, hscaled, hshown, rfl⟩ := imageFilters_eq_ok.1 h
  exact List.forall_mem_cons.2 ⟨tinted_scale hscaled, tinted_opacityFilters hshown⟩

theorem tinted_clipFilters {scene : Scene} {layer : VideoLayer}
    (h : clipFilters scene layer = .ok fs) : ∀ f ∈ fs, f.Tinted := by
  obtain ⟨start, stop, moved, scaled, shown, -, -, -, hmoved, hscaled, hshown, rfl⟩ :=
    clipFilters_eq_ok.1 h
  simp only [List.forall_mem_cons]
  exact ⟨tinted_cut start stop, tinted_fromStart hmoved, tinted_scale hscaled,
    tinted_opacityFilters hshown⟩

theorem tinted_overlayFilter (x y : String) (window : Option Window) :
    (overlayFilter x y window).Tinted := Filter.tinted_call _ (by decide)

theorem LayerStep.tinted {base : String} {scene : Scene} {i j : Int} {under : Pad}
    {s s' : Inputs} {layer : Layer} {nodes : List Node} (hlayer : layer.Accepted)
    (h : LayerStep base scene i j under s layer nodes s') :
    ∀ n ∈ nodes, ∀ f ∈ n.filters, f.Tinted := by
  cases h with
  | text hdrawn =>
    cases hlayer with
    | text hl =>
      simp only [List.forall_mem_cons]
      exact ⟨⟨TextLayer.tinted_filter hl hdrawn, List.forall_mem_nil _⟩, List.forall_mem_nil _⟩
  | image hsrc hshape hposition hwindow =>
    simp only [List.forall_mem_cons]
    exact ⟨tinted_imageFilters hshape, ⟨tinted_overlayFilter _ _ _, List.forall_mem_nil _⟩,
      List.forall_mem_nil _⟩
  | video hsrc hshape hposition hwindow =>
    simp only [List.forall_mem_cons]
    exact ⟨tinted_clipFilters hshape, ⟨tinted_overlayFilter _ _ _, List.forall_mem_nil _⟩,
      List.forall_mem_nil _⟩
  | shape hdrawn =>
    cases hlayer with
    | shape hl =>
      simp only [List.forall_mem_cons]
      exact ⟨⟨ShapeLayer.tinted_filter hl hdrawn, List.forall_mem_nil _⟩, List.forall_mem_nil _⟩

end Scene

/-! ## backgrounds -/

namespace Output

variable {output : Output} {f : Filter} {fs : List Filter}

theorem tinted_toRate (h : output.toRate = .ok f) : f.Tinted := by
  obtain ⟨t, -, rfl⟩ := toRate_eq_ok.1 h
  exact Filter.tinted_call _ (by decide)

theorem tinted_letterbox (h : output.letterbox = .ok fs) : ∀ f ∈ fs, f.Tinted := by
  obtain ⟨w, t, -, -, rfl⟩ := letterbox_eq_ok.1 h
  simp only [List.forall_mem_cons]
  exact ⟨Filter.tinted_call _ (by decide), Filter.tinted_call _ (by decide),
    List.forall_mem_nil _⟩

theorem tinted_plainColor {color : String} {duration : Value}
    (hcolor : Color.isColor color = true) (h : output.plainColor color duration = .ok f) :
    f.Tinted := by
  obtain ⟨s, d, r, -, -, -, rfl⟩ := plainColor_eq_ok.1 h
  rw [Filter.Tinted, Filter.colors_color]
  simp [hcolor]

end Output

theorem Scene.BackgroundStep.tinted {output : Output} {scene : Scene} {i : Int} {s s' : Inputs}
    {n : Node} (hbackground : scene.background.Accepted)
    (h : BackgroundStep output scene i s n s') : ∀ f ∈ n.filters, f.Tinted := by
  cases h with
  | color hb hrate hdrawn =>
    rw [hb] at hbackground
    cases hbackground with
    | color hcolor =>
      simp only [List.forall_mem_cons]
      exact ⟨Output.tinted_plainColor hcolor hdrawn, tinted_toPixelFormat, List.forall_mem_nil _⟩
  | gradient hb hrate hdrawn =>
    rw [hb] at hbackground
    cases hbackground with
    | gradient hlength hcolors hdirection =>
      have hcolor := hcolors _ List.mem_cons_self
      simp only [List.forall_mem_cons]
      exact ⟨Output.tinted_plainColor hcolor hdrawn, tinted_toPixelFormat, List.forall_mem_nil _⟩
  | image hb hsrc hrate hfitted hlasting =>
    obtain ⟨t, -, rfl⟩ := FilterOption.of_eq_ok.1 hlasting
    simp only [List.forall_mem_append, List.forall_mem_cons]
    exact ⟨⟨⟨Filter.tinted_call _ (by decide), tinted_fromZero, List.forall_mem_nil _⟩,
      Output.tinted_letterbox hfitted⟩, Filter.tinted_call _ (by decide), tinted_fromZero,
      Output.tinted_toRate hrate, tinted_toPixelFormat, List.forall_mem_nil _⟩
  | video hb hsrc hrate hstart hlength hstop hwritable hfitted =>
    simp only [List.forall_mem_append, List.forall_mem_cons]
    exact ⟨⟨⟨tinted_cut _ _, tinted_fromZero, List.forall_mem_nil _⟩,
      Output.tinted_letterbox hfitted⟩, Output.tinted_toRate hrate, tinted_toPixelFormat,
      List.forall_mem_nil _⟩

/-! ## a compiled graph -/

theorem Spec.Field.color_ok_iff {place : Place} {s t : String} :
    color place (.text s) = .ok t ↔ t = s ∧ Color.isColor s = true := by
  constructor
  · intro h
    rw [color] at h
    split at h
    · cases h
    · split at h
      · next hcolor => exact ⟨(Except.ok.inj h).symm, hcolor⟩
      · cases h
  · rintro ⟨rfl, h⟩
    exact color_eq place h

theorem AudioTrack.Heard.tinted {f : Filter} (h : Heard f) : f.Tinted := by
  cases h <;> exact Filter.tinted_call _ (by decide)

namespace Specification

variable {data : Value} {spec : Specification} {base anchor : String} {g : Graph}

theorem Origin.tinted {n : Node} (hspec : spec.Accepted) (h : spec.Origin base n) :
    ∀ f ∈ n.filters, f.Tinted := by
  cases h with
  | background hscene hstep => exact hstep.tinted (hspec.scene _ hscene).background
  | layer hscene hlayer hstep hn =>
    exact hstep.tinted ((hspec.scene _ hscene).layers _ hlayer) n hn
  | joint offset k hlast hduration =>
    exact List.forall_mem_cons.2 ⟨Filter.tinted_call _ (by decide), List.forall_mem_nil _⟩
  | track htrack hstep =>
    cases hstep with
    | track hsrc hfilters => exact fun f hf => ((AudioTrack.filters_heard hfilters).2 f hf).tinted
  | silence hsilence =>
    obtain ⟨r, -, rfl⟩ := AudioTrack.silence_eq_ok.1 hsilence
    simp only [List.forall_mem_cons]
    exact ⟨Filter.tinted_call _ (by decide), Filter.tinted_call _ (by decide),
      List.forall_mem_nil _⟩
  | mix pads =>
    exact List.forall_mem_cons.2 ⟨Filter.tinted_call _ (by decide), List.forall_mem_nil _⟩

/-- Every color of a compiled graph has passed the check of colors. -/
theorem tinted_compile (hspec : spec.Accepted) (h : spec.compile base anchor = .ok g) :
    ∀ n ∈ g.nodes, ∀ f ∈ n.filters, f.Tinted :=
  fun _ hn => (origin_of_mem h hn).tinted hspec

/-- What the check of colors takes: the forms that are meant, digits with a line end after them and
names with a Kelvin sign in them, and of each form nothing else.  A form that is meant holds only
`#`, ASCII letters and ASCII digits; the two others are never meant, and the only other characters
that they bring into a compiled graph are their line end and their Kelvin signs. -/
theorem colors_compile (hdata : ofValue data = .ok spec) (hg : spec.compile base anchor = .ok g) :
    (∀ place s t, Spec.Field.color place (.text s) = .ok t ↔
      t = s ∧ (Color.IsDocumented s ∨ Color.IsLineForm s ∨ Color.IsKelvinForm s)) ∧
    (∀ s, Color.IsLineForm s ∨ Color.IsKelvinForm s → ¬ Color.IsDocumented s) ∧
    (∀ s, Color.IsDocumented s → ∀ c ∈ s.toList, Color.InColor c) ∧
    ∀ n ∈ g.nodes, ∀ f ∈ n.filters, ∀ s ∈ f.colors,
      (Color.IsDocumented s ∨ Color.IsLineForm s ∨ Color.IsKelvinForm s) ∧
        ∀ c ∈ s.toList, Color.InColor c ∨ c = '\n' ∨ c = Text.kelvinSign := by
  refine ⟨fun place s t => ?_,
    fun s hs => hs.elim Color.not_isDocumented_of_isLineForm Color.not_isDocumented_of_isKelvinForm,
    fun s hs => hs.inColor, fun n hn f hf s hs => ?_⟩
  · rw [Spec.Field.color_ok_iff, Color.isColor_iff]
  · have hcolor := tinted_compile (accepted_of_ofValue hdata) hg n hn f hf s hs
    exact ⟨Color.isColor_iff.1 hcolor, Color.inColor_of_isColor hcolor⟩

/-- A document with one scene in the given color, over which a text is drawn in another. -/
def paintedFilm (color : String) : Value :=
  .map [("scenes", .list [.map [("id", "sky"), ("duration", 3),
    ("background", .map [("type", "color"), ("value", color)]),
    ("layers", .list [.map [("type", "text"), ("content", "hi"),
      ("style", .map [("color", "#1A1A2E80")])]])]])]

/-- What is read from it. -/
def painted (color : String) : Specification where
  scenes := [{
    id := "sky"
    duration := 3
    background := .color color
    layers := [.text { content := "hi", style := { color := "#1A1A2E80" } }] }]

theorem ofValue_paintedFilm_gray :
    ofValue (paintedFilm "DarkSlateGray") = .ok (painted "DarkSlateGray") := by
  with_unfolding_all rfl

/-- The colors of a film reach its graph as they are given. -/
theorem colors_paintedFilm : ofValue (paintedFilm "DarkSlateGray") = .ok (painted "DarkSlateGray") ∧
    ∃ g, (painted "DarkSlateGray").compile "/job" "end" = .ok g ∧
      (g.nodes.flatMap fun n => n.filters.flatMap Filter.colors)
        = ["DarkSlateGray", "#1A1A2E80", "#000000"] ∧
      ∀ s ∈ ["DarkSlateGray", "#1A1A2E80", "#000000"],
        Color.IsDocumented s ∨ Color.IsLineForm s ∨ Color.IsKelvinForm s := by
  have hlist : ((painted "DarkSlateGray").compile "/job" "end").toOption.map (fun g =>
      g.nodes.flatMap fun n => n.filters.flatMap Filter.colors)
        = some ["DarkSlateGray", "#1A1A2E80", "#000000"] := by decide +kernel
  cases hg : (painted "DarkSlateGray").compile "/job" "end" with
  | error e =>
    rw [hg] at hlist
    cases hlist
  | ok g =>
    rw [hg] at hlist
    have hcolors := Option.some.inj hlist
    obtain ⟨-, -, -, hforms⟩ := colors_compile ofValue_paintedFilm_gray hg
    refine ⟨ofValue_paintedFilm_gray, g, rfl, hcolors, fun s hs => ?_⟩
    rw [← hcolors] at hs
    obtain ⟨n, hn, hs⟩ := List.mem_flatMap.1 hs
    obtain ⟨f, hf, hs⟩ := List.mem_flatMap.1 hs
    exact (hforms n hn f hf s hs).1

/-- Digits with a line end after them are read as a color, which they are not meant to be. -/
theorem colors_paintedFilm_lineEnd :
    ofValue (paintedFilm "#aabbcc\n") = .ok (painted "#aabbcc\n") ∧
      ¬ Color.IsDocumented "#aabbcc\n" := by
  refine ⟨by with_unfolding_all rfl, fun h => ?_⟩
  exact absurd (h.inColor '\n' (by decide)) (by decide)

end Specification

end Storyboard
