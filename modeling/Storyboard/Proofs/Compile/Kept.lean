import Storyboard.Proofs.Compile.Origin
import Storyboard.Proofs.Graph.Separation

/-!
# Storyboard.Proofs.Compile.Kept

Which filters of a compiled graph keep to themselves.  For an accepted specification every
filter does, but for those that draw a text: they are closed, and whole exactly if there is
no separator in the name of their font.

* `TextLayer.isWhole_filter_iff` — the filter of a text layer;
* `Specification.Origin.kept_or_text` — the filters of every other step.
-/

namespace Storyboard

open Storyboard.Graph Spec.Field FilterOption

/-! ## fonts -/

/-- What is meant from a folder names the characters of the folder, its own, and slashes. -/
theorem Path.mem_resolve_iff {base p : String} {c : Char} (hslash : c ≠ '/')
    (hbase : c ∉ base.toList) : c ∈ (resolve base p).toList ↔ c ∈ p.toList := by
  unfold resolve join
  split
  · rfl
  · split
    · simp [hbase]
    · simp [hbase, hslash]

/-- The option of a font is whole exactly if there is no separator in the font's name. -/
theorem isWhole_fontOption_iff (font : String) {base : String} (hbase : IsFree base.toList) :
    IsClosed (fontOption font base).text.toList ∧
      (IsWhole (fontOption font base).text.toList ↔ IsFree font.toList) := by
  have hfile : Harmless "fontfile".toList := by decide
  have hname : Harmless "font".toList := by decide
  have hvalue (s : String) : (Escape.valueText s).toList = Escape.value s.toList := by
    rw [Escape.valueText, String.toList_ofList]
  have hslash : ∀ c ∈ separators, c ≠ '/' := by simp [separators]
  unfold fontOption
  split
  · refine ⟨isClosed_named hfile (hvalue _ ▸ isClosed_value _), ?_⟩
    rw [isWhole_named_iff hfile, hvalue, isWhole_value_iff]
    constructor
    · intro h c hc hmem
      exact h c hc ((Path.mem_resolve_iff (hslash c hc) (hbase c hc)).2 hmem)
    · intro h c hc hmem
      exact h c hc ((Path.mem_resolve_iff (hslash c hc) (hbase c hc)).1 hmem)
  · refine ⟨isClosed_named hname (hvalue _ ▸ isClosed_value _), ?_⟩
    rw [isWhole_named_iff hname, hvalue, isWhole_value_iff]

/-! ## where and when -/

theorem Position.harmless_axis {value : Value} {canvas size x : String}
    (h : axis value canvas size = .ok x) (hcanvas : Harmless canvas.toList)
    (hsize : Harmless size.toList) : Harmless x.toList := by
  have hdifference : Harmless (canvas ++ "-" ++ size).toList := by
    rw [String.toList_append, String.toList_append]
    exact (hcanvas.append (by decide)).append hsize
  obtain ⟨d, rfl⟩ | rfl | rfl | rfl := axis_forms h
  · exact d.harmless_shortText
  · have hhalf : "(" ++ canvas ++ "-" ++ size ++ ")/2"
        = "(" ++ (canvas ++ "-" ++ size) ++ ")/2" := by
      simp only [String.append_assoc]
    rw [hhalf, String.toList_append, String.toList_append]
    exact (Harmless.append (by decide) hdifference).append (by decide)
  · exact hdifference
  · decide

/-- The names of the sizes are plain words. -/
structure Frame.Plain (frame : Frame) : Prop where
  canvasWidth : Harmless frame.canvasWidth.toList
  canvasHeight : Harmless frame.canvasHeight.toList
  width : Harmless frame.width.toList
  height : Harmless frame.height.toList

theorem Frame.plain_overlay : Frame.overlay.Plain := by
  constructor <;> decide

theorem Frame.plain_drawnText : Frame.drawnText.Plain := by
  constructor <;> decide

theorem Frame.plain_drawnBox : Frame.drawnBox.Plain := by
  constructor <;> decide

/-- Coordinates are harmless. -/
theorem Position.harmless_resolve {p : Position} {frame : Frame} {x y : String}
    (hframe : frame.Plain) (h : p.resolve frame = .ok (x, y)) :
    Harmless x.toList ∧ Harmless y.toList := by
  obtain ⟨hx, hy⟩ := resolve_eq_ok.1 h
  exact ⟨harmless_axis hx hframe.canvasWidth hframe.width,
    harmless_axis hy hframe.canvasHeight hframe.height⟩

/-- The commas of a window stand between quotes. -/
theorem Window.isKept_text (w : Window) : IsKept w.text.toList := by
  have hnumber (d : Decimal) : '\'' ∉ d.shortText.toList := fun hmem =>
    absurd (d.harmless_shortText _ hmem) (by decide)
  obtain ⟨start, stop?⟩ := w
  have htext : ∃ inner : List Char, '\'' ∉ inner ∧
      (Window.text ⟨start, stop?⟩).toList = '\'' :: (inner ++ ['\'']) := by
    cases stop? with
    | none =>
      refine ⟨"gte(t,".toList ++ start.shortText.toList ++ ")".toList, ?_, ?_⟩
      · simp [hnumber]
      · simp [Window.text]
    | some stop =>
      refine ⟨"gte(t,".toList ++ start.shortText.toList ++ ")".toList
        ++ "*lt(t,".toList ++ stop.shortText.toList ++ ")".toList, ?_, ?_⟩
      · simp [hnumber]
      · simp [Window.text]
  obtain ⟨inner, hinner, htext⟩ := htext
  rw [htext]
  exact isKept_of_quote_notMem hinner

theorem Window.kept_options (w : Option Window) : ∀ o ∈ Window.options w, o.Kept := by
  cases w with
  | none => simp [options]
  | some w =>
    intro o ho
    obtain rfl := List.mem_singleton.1 ho
    exact kept_named (by decide) w.isKept_text

/-! ## what is drawn -/

/-- An option that is a number is kept. -/
theorem FilterOption.kept_number {name t : String} {v : Value} (hname : Harmless name.toList)
    (hv : v.IsNumber) (ht : v.optionText = .ok t) : (named name t).Kept :=
  kept_named hname (hv.harmless_optionText ht).isKept

theorem FilterOption.kept_harmless {name value : String} (hname : Harmless name.toList)
    (hvalue : Harmless value.toList) : (named name value).Kept :=
  kept_named hname hvalue.isKept

namespace TextLayer

variable {layer : TextLayer} {size outline shadow x y : String} {f : Filter}

/-- After its font, the options of a text are kept. -/
theorem styleOptions_forms {shadowed : Bool} (base : String) (window : Option Window)
    (hstyle : layer.style.Accepted) (hx : Harmless x.toList) (hy : Harmless y.toList)
    (hsize : layer.style.size.optionText = .ok size)
    (houtline : layer.style.outline.optionText = .ok outline)
    (hshadow : shadowed = true → layer.style.shadow.optionText = .ok shadow) :
    ∃ others, layer.styleOptions base size outline shadow x y shadowed window
        = fontOption layer.style.font base :: others ∧ ∀ o ∈ others, o.Kept := by
  refine ⟨[.named "fontsize" size, .named "fontcolor" layer.style.color, .named "borderw" outline,
    .named "bordercolor" layer.style.outlineColor] ++ shadowOptions shadowed shadow
      ++ [.named "x" x, .named "y" y] ++ Window.options window, rfl, ?_⟩
  have hdrawn : ∀ o ∈ [named "fontsize" size, .named "fontcolor" layer.style.color,
      .named "borderw" outline, .named "bordercolor" layer.style.outlineColor], o.Kept := by
    simp only [List.forall_mem_cons]
    exact ⟨kept_number (by decide) hstyle.size.isNumber hsize,
      kept_harmless (by decide) (Color.harmless_of_isColor hstyle.color),
      kept_number (by decide) hstyle.outline.isNumber houtline,
      kept_harmless (by decide) (Color.harmless_of_isColor hstyle.outlineColor),
      List.forall_mem_nil _⟩
  have hshadows : ∀ o ∈ shadowOptions shadowed shadow, o.Kept := by
    cases shadowed with
    | false => exact List.forall_mem_nil _
    | true =>
      have hnumber := hstyle.shadow.isNumber
      simp only [shadowOptions, if_true, List.forall_mem_cons]
      exact ⟨kept_number (by decide) hnumber (hshadow rfl),
        kept_number (by decide) hnumber (hshadow rfl), List.forall_mem_nil _⟩
  have hplace : ∀ o ∈ [named "x" x, named "y" y], o.Kept := by
    simp only [List.forall_mem_cons]
    exact ⟨kept_harmless (by decide) hx, kept_harmless (by decide) hy, List.forall_mem_nil _⟩
  intro o ho
  rw [List.mem_append, List.mem_append, List.mem_append] at ho
  rcases ho with ((ho | ho) | ho) | ho
  · exact hdrawn o ho
  · exact hshadows o ho
  · exact hplace o ho
  · exact Window.kept_options window o ho

/-- The filter of a text is whole exactly if there is no separator in the name of its font. -/
theorem isWhole_filter_iff {base : String} (hlayer : layer.Accepted) (hbase : IsFree base.toList)
    (h : layer.filter base = .ok f) :
    IsClosed f.text.toList ∧ (IsWhole f.text.toList ↔ IsFree layer.style.font.toList) := by
  obtain ⟨size, outline, shadow, x, y, shadowed, window, -, hposition, hsize, houtline, hshadow,
    rfl⟩ := filter_forms h
  obtain ⟨hx, hy⟩ := Position.harmless_resolve Frame.plain_drawnText hposition
  obtain ⟨others, hothers, hkept⟩ :=
    styleOptions_forms base window hlayer.style hx hy hsize houtline hshadow
  obtain ⟨hfontClosed, hfontWhole⟩ := isWhole_fontOption_iff layer.style.font hbase
  have hcontent : (named "text" ("'" ++ Escape.contentText layer.content ++ "'")).Kept := by
    refine kept_named (by decide) ?_
    have htext : ("'" ++ Escape.contentText layer.content ++ "'").toList
        = quotedContent layer.content.toList := by
      simp [Escape.contentText, quotedContent]
    rw [htext]
    exact isKept_quotedContent _
  have hclosed : ∀ o ∈ named "text" ("'" ++ Escape.contentText layer.content ++ "'") ::
      fontOption layer.style.font base :: others, IsClosed o.text.toList :=
    List.forall_mem_cons.2 ⟨hcontent.1, List.forall_mem_cons.2
      ⟨hfontClosed, fun o ho => (hkept o ho).1⟩⟩
  have hname : Harmless "drawtext".toList := by decide
  rw [hothers]
  obtain ⟨hcall, hwhole⟩ := Filter.isWhole_call_iff hname hclosed
  refine ⟨hcall, ?_⟩
  rw [hwhole, List.forall_mem_cons, List.forall_mem_cons, ← hfontWhole]
  constructor
  · intro hall
    exact hall.2.1
  · intro hfont
    exact ⟨hcontent.2, hfont, fun o ho => (hkept o ho).2⟩

end TextLayer

theorem ShapeLayer.kept_filter {layer : ShapeLayer} {f : Filter} (hlayer : layer.Accepted)
    (h : layer.filter = .ok f) : f.Kept := by
  obtain ⟨x, y, opacity, width, height, window, -, hposition, hopacity, hwidth, hheight, rfl⟩ :=
    filter_forms h
  obtain ⟨hx, hy⟩ := Position.harmless_resolve Frame.plain_drawnBox hposition
  have hdimension {v : Value} (hv : IsDimension v) : (Size.shapeDimension v).IsNumber := by
    rcases hv with rfl | hv
    · exact .int 100
    · cases hv.isNumber with
      | int i => exact .int i
      | float x => exact .float x
      | ratio q => exact .ratio q
  have hcolor : Harmless (layer.color ++ "@" ++ opacity).toList := by
    rw [String.toList_append, String.toList_append]
    exact ((Color.harmless_of_isColor hlayer.color).append (by decide)).append
      (Value.harmless_numberText hopacity)
  have hdrawn : ∀ o ∈ [named "x" x, .named "y" y, .named "w" width, .named "h" height,
      .named "color" (layer.color ++ "@" ++ opacity), .named "t" "fill"], o.Kept := by
    simp only [List.forall_mem_cons]
    exact ⟨kept_harmless (by decide) hx, kept_harmless (by decide) hy,
      kept_number (by decide) (hdimension hlayer.size.width) hwidth,
      kept_number (by decide) (hdimension hlayer.size.height) hheight,
      kept_harmless (by decide) hcolor, by decide, List.forall_mem_nil _⟩
  refine Filter.kept_call (by decide) ?_
  intro o ho
  cases List.mem_append.1 ho with
  | inl ho => exact hdrawn o ho
  | inr ho => exact Window.kept_options window o ho

/-! ## media -/

theorem Size.kept_scale {size : Size} {f : Filter} (h : size.scale = .ok f) : f.Kept := by
  have hscale {v : Value} {t : String} (ht : scaleText v = .ok t) : Harmless t.toList := by
    unfold scaleText at ht
    split at ht
    · obtain rfl := Except.ok.inj ht
      decide
    · exact Value.harmless_numberText ht
  obtain ⟨w, t, hw, ht, rfl⟩ := scale_eq_ok.1 h
  refine Filter.kept_call (by decide) ?_
  simp only [List.forall_mem_cons]
  exact ⟨kept_plain (hscale hw), kept_plain (hscale ht), List.forall_mem_nil _⟩

theorem Scene.kept_toPixelFormat : toPixelFormat.Kept := by decide

theorem Scene.kept_fromZero : fromZero.Kept := by decide

theorem kept_opacityFilters {opacity : Value} {range : Range} {fs : List Filter}
    (hopacity : InRange range opacity) (h : opacityFilters opacity = .ok fs) :
    ∀ f ∈ fs, f.Kept := by
  obtain rfl | ⟨a, ha, rfl⟩ := opacityFilters_forms h
  · simpa using Scene.kept_toPixelFormat
  · have hmixer : (Filter.call "colorchannelmixer" [.named "aa" a]).Kept := by
      refine Filter.kept_call (by decide) ?_
      simpa using kept_number (by decide) hopacity.isNumber ha
    simp only [List.forall_mem_cons]
    exact ⟨by decide, hmixer, Scene.kept_toPixelFormat, List.forall_mem_nil _⟩

namespace Scene

variable {f : Filter} {fs : List Filter}

theorem kept_cut (start stop : Decimal) : (cut start stop).Kept := by
  refine Filter.kept_call (by decide) ?_
  simp only [List.forall_mem_cons]
  exact ⟨kept_time (by decide) start, kept_time (by decide) stop, List.forall_mem_nil _⟩

theorem kept_fromStart {start : Value} (h : fromStart start = .ok f) : f.Kept := by
  obtain rfl | ⟨d, rfl⟩ := fromStart_forms h
  · exact kept_fromZero
  · refine Filter.kept_call (by decide) ?_
    have hshift : Harmless ("PTS-STARTPTS+" ++ d.shortText ++ "/TB").toList := by
      rw [String.toList_append, String.toList_append]
      exact (Harmless.append (by decide) d.harmless_shortText).append (by decide)
    simpa using kept_plain hshift

theorem kept_imageFilters {layer : ImageLayer} (hlayer : layer.Accepted)
    (h : imageFilters layer = .ok fs) : ∀ f ∈ fs, f.Kept := by
  obtain ⟨scaled, shown, hscaled, hshown, rfl⟩ := imageFilters_eq_ok.1 h
  exact List.forall_mem_cons.2
    ⟨Size.kept_scale hscaled, kept_opacityFilters hlayer.opacity hshown⟩

theorem kept_clipFilters {scene : Scene} {layer : VideoLayer} (hlayer : layer.Accepted)
    (h : clipFilters scene layer = .ok fs) : ∀ f ∈ fs, f.Kept := by
  obtain ⟨start, stop, moved, scaled, shown, -, -, -, hmoved, hscaled, hshown, rfl⟩ :=
    clipFilters_eq_ok.1 h
  simp only [List.forall_mem_cons]
  exact ⟨kept_cut start stop, kept_fromStart hmoved, Size.kept_scale hscaled,
    kept_opacityFilters hlayer.opacity hshown⟩

theorem kept_overlayFilter {p : Position} {x y : String} (window : Option Window)
    (h : p.resolve .overlay = .ok (x, y)) : (overlayFilter x y window).Kept := by
  obtain ⟨hx, hy⟩ := Position.harmless_resolve Frame.plain_overlay h
  refine Filter.kept_call (by decide) ?_
  intro o ho
  cases List.mem_append.1 ho with
  | inl ho =>
      simp only [List.mem_cons, List.not_mem_nil, or_false] at ho
      rcases ho with rfl | rfl
      · exact kept_harmless (by decide) hx
      · exact kept_harmless (by decide) hy
  | inr ho => exact Window.kept_options window o ho

end Scene

/-! ## backgrounds -/

namespace Output

variable {output : Output} {f : Filter} {fs : List Filter}

theorem kept_toRate (ho : output.Accepted) (h : output.toRate = .ok f) : f.Kept := by
  obtain ⟨t, ht, rfl⟩ := toRate_eq_ok.1 h
  refine Filter.kept_call (by decide) ?_
  simpa using kept_plain (ho.fps.isNumber.harmless_optionText ht)

theorem kept_letterbox (ho : output.Accepted) (h : output.letterbox = .ok fs) :
    ∀ f ∈ fs, f.Kept := by
  obtain ⟨w, t, hw, ht, rfl⟩ := letterbox_eq_ok.1 h
  have hwidth := kept_plain (ho.width.isNumber.harmless_optionText hw)
  have hheight := kept_plain (ho.height.isNumber.harmless_optionText ht)
  simp only [List.forall_mem_cons]
  refine ⟨Filter.kept_call (by decide) ?_, Filter.kept_call (by decide) ?_, List.forall_mem_nil _⟩
  · simp only [List.forall_mem_cons]
    exact ⟨hwidth, hheight, by decide, List.forall_mem_nil _⟩
  · simp only [List.forall_mem_cons]
    exact ⟨hwidth, hheight, by decide, by decide, List.forall_mem_nil _⟩

theorem kept_plainColor {color : String} {duration : Value} {range : Range} (ho : output.Accepted)
    (hcolor : Color.isColor color = true) (hduration : InRange range duration)
    (h : output.plainColor color duration = .ok f) : f.Kept := by
  obtain ⟨s, d, r, hs, hd, hr, rfl⟩ := plainColor_eq_ok.1 h
  obtain ⟨w, t, hw, ht, rfl⟩ := canvas_eq_ok.1 hs
  have hcanvas : Harmless (w ++ "x" ++ t).toList := by
    rw [String.toList_append, String.toList_append]
    exact ((ho.width.harmless_plainText hw).append (by decide)).append
      (ho.height.harmless_plainText ht)
  refine Filter.kept_call (by decide) ?_
  simp only [List.forall_mem_cons]
  exact ⟨kept_harmless (by decide) (Color.harmless_of_isColor hcolor),
    kept_harmless (by decide) hcanvas, kept_number (by decide) hduration.isNumber hd,
    kept_number (by decide) ho.fps.isNumber hr, List.forall_mem_nil _⟩

end Output

namespace Scene

variable {output : Output} {scene : Scene} {i j : Int} {s s' : Inputs} {n : Node}

theorem BackgroundStep.kept (ho : output.Accepted) (hscene : scene.Accepted)
    (h : BackgroundStep output scene i s n s') : ∀ f ∈ n.filters, f.Kept := by
  have hbackground := hscene.background
  cases h with
  | color hb hrate hdrawn =>
    rw [hb] at hbackground
    cases hbackground with
    | color hcolor =>
      simp only [List.forall_mem_cons]
      exact ⟨Output.kept_plainColor ho hcolor hscene.duration hdrawn, kept_toPixelFormat,
        List.forall_mem_nil _⟩
  | gradient hb hrate hdrawn =>
    rw [hb] at hbackground
    cases hbackground with
    | gradient hlength hcolors hdirection =>
      have hcolor := hcolors _ List.mem_cons_self
      simp only [List.forall_mem_cons]
      exact ⟨Output.kept_plainColor ho hcolor hscene.duration hdrawn, kept_toPixelFormat,
        List.forall_mem_nil _⟩
  | image hb hsrc hrate hfitted hlasting =>
    obtain ⟨t, ht, rfl⟩ := FilterOption.of_eq_ok.1 hlasting
    have htrim : (Filter.call "trim" [.named "duration" t]).Kept := by
      refine Filter.kept_call (by decide) ?_
      simpa using kept_number (by decide) hscene.duration.isNumber ht
    simp only [List.forall_mem_append, List.forall_mem_cons]
    exact ⟨⟨⟨by decide, kept_fromZero, List.forall_mem_nil _⟩, Output.kept_letterbox ho hfitted⟩,
      htrim, kept_fromZero, Output.kept_toRate ho hrate, kept_toPixelFormat,
      List.forall_mem_nil _⟩
  | video hb hsrc hrate hstart hlength hstop hwritable hfitted =>
    simp only [List.forall_mem_append, List.forall_mem_cons]
    exact ⟨⟨⟨kept_cut _ _, kept_fromZero, List.forall_mem_nil _⟩,
      Output.kept_letterbox ho hfitted⟩, Output.kept_toRate ho hrate, kept_toPixelFormat,
      List.forall_mem_nil _⟩

end Scene

/-! ## joints and sound -/

theorem Transition.kept_filter (type : String) (duration offset : Decimal) :
    (filter type duration offset).Kept := by
  have heffects : ∀ p ∈ effects, Harmless p.2.toList := by decide
  have heffect : Harmless (effect type).toList := by
    unfold effect
    cases hlookup : effects.lookup type with
    | none => decide
    | some name =>
      obtain ⟨before, after, heq, -⟩ := List.lookup_eq_some_iff.1 hlookup
      exact heffects (type, name) (by simp [heq])
  refine Filter.kept_call (by decide) ?_
  simp only [List.forall_mem_cons]
  exact ⟨kept_harmless (by decide) heffect, kept_time (by decide) duration,
    kept_time (by decide) offset, List.forall_mem_nil _⟩

theorem AudioTrack.Heard.kept {f : Filter} (h : Heard f) : f.Kept := by
  cases h with
  | after start =>
    refine Filter.kept_call (by decide) ?_
    simpa using kept_time (by decide) start
  | between start stop =>
    refine Filter.kept_call (by decide) ?_
    simp only [List.forall_mem_cons]
    exact ⟨kept_time (by decide) start, kept_time (by decide) stop, List.forall_mem_nil _⟩
  | fromZero => decide
  | volume d =>
    refine Filter.kept_call (by decide) ?_
    simpa using kept_plain d.harmless_shortText
  | fadeIn d =>
    refine Filter.kept_call (by decide) ?_
    simp only [List.forall_mem_cons]
    exact ⟨by decide, kept_time (by decide) d, List.forall_mem_nil _⟩
  | fadeOut d start =>
    refine Filter.kept_call (by decide) ?_
    simp only [List.forall_mem_cons]
    exact ⟨by decide, kept_time (by decide) d, kept_time (by decide) start,
      List.forall_mem_nil _⟩
  | delay ms =>
    refine Filter.kept_call (by decide) ?_
    simp only [List.forall_mem_cons]
    exact ⟨kept_harmless (by decide) (Number.harmless_repr ms), by decide, List.forall_mem_nil _⟩
  | unchanged => decide

/-! ## statements -/

/-- The filters of a layer are kept, unless it is a text. -/
theorem Scene.LayerStep.kept_or_text {base : String} {scene : Scene} {i j : Int} {under : Pad}
    {s s' : Inputs} {layer : Layer} {nodes : List Node} (hlayer : layer.Accepted)
    (h : LayerStep base scene i j under s layer nodes s') :
    ∀ n ∈ nodes, (∀ f ∈ n.filters, f.Kept) ∨
      ∃ l f, layer = .text l ∧ l.filter base = .ok f ∧ n.filters = [f] := by
  cases h with
  | text hdrawn =>
    intro n hn
    obtain rfl := List.mem_singleton.1 hn
    exact .inr ⟨_, _, rfl, hdrawn, rfl⟩
  | image hsrc hshape hposition hwindow =>
    cases hlayer with
    | image hl =>
      simp only [List.forall_mem_cons]
      refine ⟨.inl (kept_imageFilters hl hshape), .inl ?_, List.forall_mem_nil _⟩
      exact ⟨kept_overlayFilter _ hposition, List.forall_mem_nil _⟩
  | video hsrc hshape hposition hwindow =>
    cases hlayer with
    | video hl =>
      simp only [List.forall_mem_cons]
      refine ⟨.inl (kept_clipFilters hl hshape), .inl ?_, List.forall_mem_nil _⟩
      exact ⟨kept_overlayFilter _ hposition, List.forall_mem_nil _⟩
  | shape hdrawn =>
    cases hlayer with
    | shape hl =>
      intro n hn
      obtain rfl := List.mem_singleton.1 hn
      simpa using ShapeLayer.kept_filter hl hdrawn

/-- The filters of a statement are kept, unless it draws a text. -/
theorem Specification.Origin.kept_or_text {spec : Specification} {base : String} {n : Node}
    (hspec : spec.Accepted) (h : spec.Origin base n) :
    (∀ f ∈ n.filters, f.Kept) ∨ ∃ scene ∈ spec.scenes, ∃ l f, .text l ∈ scene.layers ∧
      l.filter base = .ok f ∧ n.filters = [f] := by
  cases h with
  | background hscene hstep => exact .inl (hstep.kept hspec.output (hspec.scene _ hscene))
  | layer hscene hlayer hstep hn =>
    cases hstep.kept_or_text ((hspec.scene _ hscene).layers _ hlayer) n hn with
    | inl hkept => exact .inl hkept
    | inr htext =>
        obtain ⟨l, f, rfl, hf, hfilters⟩ := htext
        exact .inr ⟨_, hscene, l, f, hlayer, hf, hfilters⟩
  | joint offset k hlast hduration =>
    refine .inl ?_
    simpa using Transition.kept_filter _ _ offset
  | track htrack hstep =>
    cases hstep with
    | track hsrc hfilters =>
      exact .inl fun f hf => ((AudioTrack.filters_heard hfilters).2 f hf).kept
  | silence hsilence =>
    obtain ⟨r, hr, rfl⟩ := AudioTrack.silence_eq_ok.1 hsilence
    have hsource : (Filter.call "anullsrc" [.named "r" r, .named "cl" "stereo"]).Kept := by
      refine Filter.kept_call (by decide) ?_
      simp only [List.forall_mem_cons]
      exact ⟨kept_number (by decide) hspec.output.sampleRate.isNumber hr, by decide,
        List.forall_mem_nil _⟩
    refine .inl ?_
    simp only [List.forall_mem_cons]
    exact ⟨hsource, by decide, List.forall_mem_nil _⟩
  | mix pads =>
    have hmix : (Filter.call "amix" [.named "inputs" pads.length.repr,
        .named "dropout_transition" "0"]).Kept := by
      refine Filter.kept_call (by decide) ?_
      simp only [List.forall_mem_cons]
      exact ⟨kept_harmless (by decide) (Number.harmless_natRepr _), by decide,
        List.forall_mem_nil _⟩
    refine .inl ?_
    simpa [AudioTrack.mixNode] using hmix

end Storyboard
