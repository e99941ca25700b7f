import Storyboard.Compile
import Storyboard.Proofs.Compile.Run
import Storyboard.Proofs.Value.Writable

/-!
# Storyboard.Proofs.Compile.Filters

The filters that a step puts into a statement.  Each function that makes filters has one
equivalence, or one list of the forms it gives, with the texts of the values that went
into the options; what is proved about filters is proved from these forms.

* `TextLayer.filter_forms`, `ShapeLayer.filter_forms` — what is drawn;
* `Scene.imageFilters_eq_ok`, `Scene.clipFilters_eq_ok` — media in shape;
* `AudioTrack.filters_forms`, `AudioTrack.filters_heard` — a track.
-/

namespace Storyboard

/-! ## options -/

namespace FilterOption

theorem of_eq_ok {name : String} {v : Value} {o : FilterOption} :
    of name v = .ok o ↔ ∃ t, v.optionText = .ok t ∧ o = named name t := by
  simp only [of, bind_eq_ok, pure_eq_ok]

theorem positional_eq_ok {v : Value} {o : FilterOption} :
    positional v = .ok o ↔ ∃ t, v.optionText = .ok t ∧ o = plain t := by
  simp only [positional, bind_eq_ok, pure_eq_ok]

end FilterOption

theorem Decimal.mapM_written_eq_ok {d? x? : Option Decimal} :
    d?.mapM Decimal.written = .ok x? ↔ (∀ d ∈ d?, d.isWritable = true) ∧ x? = d? := by
  cases d? with
  | none => simpa using pure_eq_ok
  | some d =>
    rw [Option.mapM_some, map_eq_pure_bind, bind_eq_ok]
    simp only [pure_eq_ok, written_eq_ok, and_assoc, exists_and_left, exists_eq_left,
      Option.mem_some_iff, forall_eq']

/-! ## the picture -/

namespace Output

variable {output : Output}

theorem canvas_eq_ok {t : String} :
    output.canvas = .ok t ↔ ∃ w h, output.width.plainText = .ok w ∧
      output.height.plainText = .ok h ∧ t = w ++ "x" ++ h := by
  simp only [canvas, bind_eq_ok, pure_eq_ok]
  constructor
  · rintro ⟨w, hw, h, hh, rfl⟩; exact ⟨w, h, hw, hh, rfl⟩
  · rintro ⟨w, h, hw, hh, rfl⟩; exact ⟨w, hw, h, hh, rfl⟩

theorem toRate_eq_ok {f : Filter} :
    output.toRate = .ok f ↔ ∃ t, output.fps.optionText = .ok t ∧ f = .call "fps" [.plain t] := by
  simp only [toRate, bind_eq_ok, pure_eq_ok, FilterOption.positional_eq_ok]
  constructor
  · rintro ⟨o, ⟨t, ht, rfl⟩, rfl⟩; exact ⟨t, ht, rfl⟩
  · rintro ⟨t, ht, rfl⟩; exact ⟨_, ⟨t, ht, rfl⟩, rfl⟩

theorem letterbox_eq_ok {fs : List Filter} :
    output.letterbox = .ok fs ↔ ∃ w h, output.width.optionText = .ok w ∧
      output.height.optionText = .ok h ∧
      fs = [.call "scale" [.plain w, .plain h, .named "force_original_aspect_ratio" "decrease"],
        .call "pad" [.plain w, .plain h, .plain "(ow-iw)/2", .plain "(oh-ih)/2"]] := by
  simp only [letterbox, bind_eq_ok, pure_eq_ok, FilterOption.positional_eq_ok]
  constructor
  · rintro ⟨_, ⟨w, hw, rfl⟩, _, ⟨h, hh, rfl⟩, rfl⟩; exact ⟨w, h, hw, hh, rfl⟩
  · rintro ⟨w, h, hw, hh, rfl⟩; exact ⟨_, ⟨w, hw, rfl⟩, _, ⟨h, hh, rfl⟩, rfl⟩

theorem plainColor_eq_ok {color : String} {duration : Value} {f : Filter} :
    output.plainColor color duration = .ok f ↔ ∃ s d r, output.canvas = .ok s ∧
      duration.optionText = .ok d ∧ output.fps.optionText = .ok r ∧
      f = .call "color" [.named "c" color, .named "s" s, .named "d" d, .named "r" r] := by
  simp only [plainColor, bind_eq_ok, pure_eq_ok, FilterOption.of_eq_ok]
  constructor
  · rintro ⟨s, hs, _, ⟨d, hd, rfl⟩, _, ⟨r, hr, rfl⟩, rfl⟩; exact ⟨s, d, r, hs, hd, hr, rfl⟩
  · rintro ⟨s, d, r, hs, hd, hr, rfl⟩; exact ⟨s, hs, _, ⟨d, hd, rfl⟩, _, ⟨r, hr, rfl⟩, rfl⟩

end Output

theorem Size.scale_eq_ok {size : Size} {f : Filter} :
    size.scale = .ok f ↔ ∃ w h, scaleText size.width = .ok w ∧ scaleText size.height = .ok h ∧
      f = .call "scale" [.plain w, .plain h] := by
  simp only [scale, bind_eq_ok, pure_eq_ok]
  constructor
  · rintro ⟨w, hw, h, hh, rfl⟩; exact ⟨w, h, hw, hh, rfl⟩
  · rintro ⟨w, h, hw, hh, rfl⟩; exact ⟨w, hw, h, hh, rfl⟩

/-- An element is brought to the pixel format, and made see-through before that if its
opacity is given and less than one. -/
theorem opacityFilters_forms {opacity : Value} {fs : List Filter}
    (h : opacityFilters opacity = .ok fs) :
    fs = [Scene.toPixelFormat] ∨ ∃ a, opacity.optionText = .ok a ∧
      fs = [.call "format" [.plain "rgba"], .call "colorchannelmixer" [.named "aa" a],
        Scene.toPixelFormat] := by
  unfold opacityFilters at h
  split at h
  · exact .inl (pure_eq_ok.1 h)
  · obtain ⟨d, -, h⟩ := bind_eq_ok.1 h
    obtain ⟨less, -, h⟩ := bind_eq_ok.1 h
    split at h
    · obtain ⟨o, ho, h⟩ := bind_eq_ok.1 h
      obtain ⟨a, ha, rfl⟩ := FilterOption.of_eq_ok.1 ho
      exact .inr ⟨a, ha, pure_eq_ok.1 h⟩
    · exact .inl (pure_eq_ok.1 h)

namespace Scene

variable {fs : List Filter} {f : Filter}

theorem fromStart_forms {start : Value} (h : fromStart start = .ok f) :
    f = fromZero ∨
      ∃ d : Decimal, f = .call "setpts" [.plain ("PTS-STARTPTS+" ++ d.shortText ++ "/TB")] := by
  obtain ⟨d, -, h⟩ := bind_eq_ok.1 h
  obtain ⟨later, -, h⟩ := bind_eq_ok.1 h
  split at h
  · obtain ⟨-, h⟩ := Decimal.written_bind_eq_ok.1 h
    exact .inr ⟨d, pure_eq_ok.1 h⟩
  · exact .inl (pure_eq_ok.1 h)

theorem imageFilters_eq_ok {layer : ImageLayer} :
    imageFilters layer = .ok fs ↔ ∃ scaled shown, layer.size.scale = .ok scaled ∧
      opacityFilters layer.opacity = .ok shown ∧ fs = scaled :: shown := by
  simp only [imageFilters, bind_eq_ok, pure_eq_ok]
  constructor
  · rintro ⟨scaled, hscaled, shown, hshown, rfl⟩; exact ⟨scaled, shown, hscaled, hshown, rfl⟩
  · rintro ⟨scaled, shown, hscaled, hshown, rfl⟩; exact ⟨scaled, hscaled, shown, hshown, rfl⟩

theorem clipFilters_eq_ok {scene : Scene} {layer : VideoLayer} :
    clipFilters scene layer = .ok fs ↔ ∃ start stop moved scaled shown,
      layer.trim.start.toDecimal = .ok start ∧ clipStop scene layer start = .ok stop ∧
      (start.isWritable = true ∧ stop.isWritable = true) ∧
      fromStart layer.start = .ok moved ∧ layer.size.scale = .ok scaled ∧
      opacityFilters layer.opacity = .ok shown ∧
      fs = cut start stop :: moved :: scaled :: shown := by
  simp only [clipFilters, bind_eq_ok, pure_eq_ok, Decimal.written_eq_ok]
  constructor
  · rintro ⟨start, hstart, stop, hstop, _, ⟨hfirst, rfl⟩, _, ⟨hlast, rfl⟩, moved, hmoved, scaled,
      hscaled, shown, hshown, rfl⟩
    exact ⟨_, _, moved, scaled, shown, hstart, hstop, ⟨hfirst, hlast⟩, hmoved, hscaled, hshown, rfl⟩
  · rintro ⟨start, stop, moved, scaled, shown, hstart, hstop, ⟨hfirst, hlast⟩, hmoved, hscaled,
      hshown, rfl⟩
    exact ⟨start, hstart, stop, hstop, start, ⟨hfirst, rfl⟩, stop, ⟨hlast, rfl⟩, moved, hmoved,
      scaled, hscaled, shown, hshown, rfl⟩

end Scene

/-! ## what is drawn -/

namespace Position

variable {value : Value} {canvas size x y : String}

/-- A coordinate is a number in short form, an expression in the two sizes, or zero. -/
theorem axis_forms (h : axis value canvas size = .ok x) :
    (∃ d : Decimal, x = d.shortText) ∨ x = "(" ++ canvas ++ "-" ++ size ++ ")/2" ∨
      x = canvas ++ "-" ++ size ∨ x = "0" := by
  unfold axis at h
  split at h
  · obtain ⟨d, -, -, rfl⟩ := Value.numberText_eq_ok.1 h
    exact .inl ⟨d, rfl⟩
  · obtain ⟨d, -, -, rfl⟩ := Value.numberText_eq_ok.1 h
    exact .inl ⟨d, rfl⟩
  · exact .inr (.inl (pure_eq_ok.1 h))
  · exact .inr (.inr (.inl (pure_eq_ok.1 h)))
  · exact .inr (.inr (.inl (pure_eq_ok.1 h)))
  · exact .inr (.inr (.inr (pure_eq_ok.1 h)))

theorem resolve_eq_ok {p : Position} {frame : Frame} :
    p.resolve frame = .ok (x, y) ↔ axis p.x frame.canvasWidth frame.width = .ok x ∧
      axis p.y frame.canvasHeight frame.height = .ok y := by
  simp only [resolve, bind_eq_ok, pure_eq_ok, Prod.mk.injEq]
  constructor
  · rintro ⟨_, hx, _, hy, rfl, rfl⟩; exact ⟨hx, hy⟩
  · rintro ⟨hx, hy⟩; exact ⟨x, hx, y, hy, rfl, rfl⟩

end Position

/-- The options of a text's shadow: none, or one for each axis. -/
def TextLayer.shadowOptions (shadowed : Bool) (shadow : String) : List FilterOption :=
  if shadowed then [.named "shadowx" shadow, .named "shadowy" shadow] else []

/-- The options of a drawn text after its content. -/
def TextLayer.styleOptions (layer : TextLayer) (base size outline shadow x y : String)
    (shadowed : Bool) (window : Option Window) : List FilterOption :=
  [fontOption layer.style.font base, .named "fontsize" size,
    .named "fontcolor" layer.style.color, .named "borderw" outline,
    .named "bordercolor" layer.style.outlineColor]
    ++ shadowOptions shadowed shadow ++ [.named "x" x, .named "y" y] ++ Window.options window

/-- The filter that draws a text: its content first, then how, where and when it is drawn. -/
theorem TextLayer.filter_forms {layer : TextLayer} {base : String} {f : Filter}
    (h : layer.filter base = .ok f) :
    ∃ size outline shadow x y shadowed window,
      Window.of layer.start layer.duration = .ok window ∧
      layer.position.resolve .drawnText = .ok (x, y) ∧
      layer.style.size.optionText = .ok size ∧ layer.style.outline.optionText = .ok outline ∧
      (shadowed = true → layer.style.shadow.optionText = .ok shadow) ∧
      f = .call "drawtext"
        (.named "text" ("'" ++ Graph.Escape.contentText layer.content ++ "'") ::
          layer.styleOptions base size outline shadow x y shadowed window) := by
  obtain ⟨⟨x, y⟩, hposition, h⟩ := bind_eq_ok.1 h
  obtain ⟨_, -, h⟩ := bind_eq_ok.1 h
  obtain ⟨shadowed, -, h⟩ := bind_eq_ok.1 h
  obtain ⟨window, hwindow, h⟩ := bind_eq_ok.1 h
  obtain ⟨_, hsizeOption, h⟩ := bind_eq_ok.1 h
  obtain ⟨size, hsize, rfl⟩ := FilterOption.of_eq_ok.1 hsizeOption
  obtain ⟨_, houtlineOption, h⟩ := bind_eq_ok.1 h
  obtain ⟨outline, houtline, rfl⟩ := FilterOption.of_eq_ok.1 houtlineOption
  cases shadowed with
  | false =>
    exact ⟨size, outline, "", x, y, false, window, hwindow, hposition, hsize, houtline, by simp,
      pure_eq_ok.1 h⟩
  | true =>
    obtain ⟨_, hfirst, h⟩ := bind_eq_ok.1 h
    obtain ⟨shadow, hshadow, rfl⟩ := FilterOption.of_eq_ok.1 hfirst
    obtain ⟨_, hsecond, h⟩ := bind_eq_ok.1 h
    obtain ⟨again, hagain, rfl⟩ := FilterOption.of_eq_ok.1 hsecond
    obtain rfl : again = shadow := by
      rw [hshadow] at hagain
      exact (Except.ok.inj hagain).symm
    exact ⟨size, outline, again, x, y, true, window, hwindow, hposition, hsize, houtline,
      fun _ => hagain, pure_eq_ok.1 h⟩

theorem ShapeLayer.filter_forms {layer : ShapeLayer} {f : Filter} (h : layer.filter = .ok f) :
    ∃ x y opacity width height window, Window.of layer.start layer.duration = .ok window ∧
      layer.position.resolve .drawnBox = .ok (x, y) ∧ layer.opacity.numberText = .ok opacity ∧
      (Size.shapeDimension layer.size.width).optionText = .ok width ∧
      (Size.shapeDimension layer.size.height).optionText = .ok height ∧
      f = .call "drawbox"
        ([.named "x" x, .named "y" y, .named "w" width, .named "h" height,
          .named "color" (layer.color ++ "@" ++ opacity), .named "t" "fill"]
          ++ Window.options window) := by
  obtain ⟨⟨x, y⟩, hposition, h⟩ := bind_eq_ok.1 h
  obtain ⟨opacity, hopacity, h⟩ := bind_eq_ok.1 h
  obtain ⟨window, hwindow, h⟩ := bind_eq_ok.1 h
  obtain ⟨_, hwidthOption, h⟩ := bind_eq_ok.1 h
  obtain ⟨width, hwidth, rfl⟩ := FilterOption.of_eq_ok.1 hwidthOption
  obtain ⟨_, hheightOption, h⟩ := bind_eq_ok.1 h
  obtain ⟨height, hheight, rfl⟩ := FilterOption.of_eq_ok.1 hheightOption
  exact ⟨x, y, opacity, width, height, window, hwindow, hposition, hopacity, hwidth, hheight,
    pure_eq_ok.1 h⟩

/-! ## what is heard -/

namespace AudioTrack

variable {anchor : Anchor} {track : AudioTrack} {start fade volume : Decimal}
  {stop? : Option Decimal} {fs : List Filter}

/-- The filters that a track may be heard through. -/
inductive Heard : Filter → Prop
  | after (start : Decimal) : Heard (.call "atrim" [.time "start" start])
  | between (start stop : Decimal) :
      Heard (.call "atrim" [.time "start" start, .time "end" stop])
  | fromZero : Heard (.call "asetpts" [.plain "PTS-STARTPTS"])
  | volume (d : Decimal) : Heard (.call "volume" [.plain d.shortText])
  | fadeIn (d : Decimal) : Heard (.call "afade" [.named "t" "in", .time "d" d])
  | fadeOut (d start : Decimal) :
      Heard (.call "afade" [.named "t" "out", .time "d" d, .time "st" start])
  | delay (ms : Int) : Heard (.call "adelay" [.named "delays" ms.repr, .named "all" "1"])
  | unchanged : Heard unchanged

theorem windowFilters_eq_ok : windowFilters start stop? = .ok fs ↔
    ∃ later, start.isPositive = .ok later ∧ if later || stop?.isSome then
      (start.isWritable = true ∧ ∀ stop ∈ stop?, stop.isWritable = true) ∧
        fs = [.call "atrim" (.time "start" start :: stop?.elim [] fun stop => [.time "end" stop]),
          .call "asetpts" [.plain "PTS-STARTPTS"]] else fs = [] := by
  rw [windowFilters, bind_eq_ok]
  refine exists_congr fun later => and_congr_right fun _ => ?_
  split
  · simp only [bind_eq_ok, pure_eq_ok, Decimal.written_eq_ok, Decimal.mapM_written_eq_ok, and_assoc,
      exists_and_left, exists_eq_left]
  · exact pure_eq_ok

theorem volumeFilters_eq_ok : volumeFilters volume = .ok fs ↔
    ∃ same, volume.same (.ofInt 1) = .ok same ∧ if same then fs = [] else
      volume.isWritable = true ∧ fs = [.call "volume" [.plain volume.shortText]] := by
  rw [volumeFilters, bind_eq_ok]
  refine exists_congr fun same => and_congr_right fun _ => ?_
  split
  · exact pure_eq_ok
  · rw [Decimal.written_bind_eq_ok, pure_eq_ok]

theorem fadeInFilters_eq_ok : fadeInFilters fade = .ok fs ↔
    ∃ fades, fade.isPositive = .ok fades ∧ if fades then
      fade.isWritable = true ∧ fs = [.call "afade" [.named "t" "in", .time "d" fade]]
        else fs = [] := by
  rw [fadeInFilters, bind_eq_ok]
  refine exists_congr fun fades => and_congr_right fun _ => ?_
  split
  · rw [Decimal.written_bind_eq_ok, pure_eq_ok]
  · exact pure_eq_ok

theorem fadeOutFilters_eq_ok : fadeOutFilters anchor fade start stop? = .ok fs ↔
    ∃ fades, fade.isPositive = .ok fades ∧ if fades then
      ∃ first, fadeOutStart anchor fade start stop? = .ok first ∧
        (fade.isWritable = true ∧ first.isWritable = true) ∧
        fs = [.call "afade" [.named "t" "out", .time "d" fade, .time "st" first]] else fs = [] := by
  rw [fadeOutFilters, bind_eq_ok]
  refine exists_congr fun fades => and_congr_right fun _ => ?_
  split
  · simp only [bind_eq_ok, pure_eq_ok, Decimal.written_eq_ok, and_assoc, exists_and_left,
      exists_eq_left]
  · exact pure_eq_ok

theorem delayFilters_eq_ok : delayFilters start = .ok fs ↔
    ∃ later, start.isPositive = .ok later ∧ if later then
      ∃ ms, start.milliseconds = .ok ms ∧
        fs = [.call "adelay" [.named "delays" ms.repr, .named "all" "1"]] else fs = [] := by
  rw [delayFilters, bind_eq_ok]
  refine exists_congr fun later => and_congr_right fun _ => ?_
  split
  · simp only [bind_eq_ok, pure_eq_ok]
  · exact pure_eq_ok

theorem windowFilters_heard (h : windowFilters start stop? = .ok fs) : ∀ f ∈ fs, Heard f := by
  obtain ⟨later, -, h⟩ := windowFilters_eq_ok.1 h
  split at h
  · obtain ⟨-, rfl⟩ := h
    cases stop? with
    | none => simpa using ⟨Heard.after start, Heard.fromZero⟩
    | some stop => simpa using ⟨Heard.between start stop, Heard.fromZero⟩
  · simp [h]

theorem volumeFilters_heard (h : volumeFilters volume = .ok fs) : ∀ f ∈ fs, Heard f := by
  obtain ⟨same, -, h⟩ := volumeFilters_eq_ok.1 h
  split at h
  · simp [h]
  · obtain ⟨-, rfl⟩ := h
    simpa using Heard.volume volume

theorem fadeInFilters_heard (h : fadeInFilters fade = .ok fs) : ∀ f ∈ fs, Heard f := by
  obtain ⟨fades, -, h⟩ := fadeInFilters_eq_ok.1 h
  split at h
  · obtain ⟨-, rfl⟩ := h
    simpa using Heard.fadeIn fade
  · simp [h]

theorem fadeOutFilters_heard (h : fadeOutFilters anchor fade start stop? = .ok fs) :
    ∀ f ∈ fs, Heard f := by
  obtain ⟨fades, -, h⟩ := fadeOutFilters_eq_ok.1 h
  split at h
  · obtain ⟨first, -, -, rfl⟩ := h
    simpa using Heard.fadeOut fade first
  · simp [h]

theorem delayFilters_heard (h : delayFilters start = .ok fs) : ∀ f ∈ fs, Heard f := by
  obtain ⟨later, -, h⟩ := delayFilters_eq_ok.1 h
  split at h
  · obtain ⟨ms, -, rfl⟩ := h
    simpa using Heard.delay ms
  · simp [h]

/-- The filters of a track are those of its window, its volume, its fades and its delay, one after
another, unless there is none. -/
theorem filters_forms (h : filters anchor track = .ok fs) :
    ∃ start stop? volume fadeIn fadeOut delay kept louder fadedIn fadedOut delayed,
      track.window = .ok (start, stop?) ∧ windowFilters start stop? = .ok kept ∧
      track.volume.toDecimal = .ok volume ∧ volumeFilters volume = .ok louder ∧
      track.fadeIn.toDecimal = .ok fadeIn ∧ fadeInFilters fadeIn = .ok fadedIn ∧
      track.fadeOut.toDecimal = .ok fadeOut ∧
      fadeOutFilters anchor fadeOut start stop? = .ok fadedOut ∧
      track.start.toDecimal = .ok delay ∧ delayFilters delay = .ok delayed ∧
      (kept ++ louder ++ fadedIn ++ fadedOut ++ delayed = [] ∧ fs = [unchanged] ∨
        fs ≠ [] ∧ fs = kept ++ louder ++ fadedIn ++ fadedOut ++ delayed) := by
  obtain ⟨⟨start, stop?⟩, hwindow, h⟩ := bind_eq_ok.1 h
  obtain ⟨kept, hkept, h⟩ := bind_eq_ok.1 h
  obtain ⟨volume, hvolume, h⟩ := bind_eq_ok.1 h
  obtain ⟨louder, hlouder, h⟩ := bind_eq_ok.1 h
  obtain ⟨fadeIn, hfadeIn, h⟩ := bind_eq_ok.1 h
  obtain ⟨fadedIn, hfadedIn, h⟩ := bind_eq_ok.1 h
  obtain ⟨fadeOut, hfadeOut, h⟩ := bind_eq_ok.1 h
  obtain ⟨fadedOut, hfadedOut, h⟩ := bind_eq_ok.1 h
  obtain ⟨delay, hdelay, h⟩ := bind_eq_ok.1 h
  obtain ⟨delayed, hdelayed, h⟩ := bind_eq_ok.1 h
  refine ⟨start, stop?, volume, fadeIn, fadeOut, delay, kept, louder, fadedIn, fadedOut, delayed,
    hwindow, hkept, hvolume, hlouder, hfadeIn, hfadedIn, hfadeOut, hfadedOut, hdelay, hdelayed, ?_⟩
  obtain rfl := pure_eq_ok.1 h
  split
  · next hempty => exact .inl ⟨List.isEmpty_iff.1 hempty, rfl⟩
  · next hne => exact .inr ⟨fun hempty => hne (List.isEmpty_iff.2 hempty), rfl⟩

/-- A track is heard through at least one filter. -/
theorem filters_heard (h : filters anchor track = .ok fs) : fs ≠ [] ∧ ∀ f ∈ fs, Heard f := by
  obtain ⟨start, stop?, volume, fadeIn, fadeOut, delay, kept, louder, fadedIn, fadedOut, delayed, -,
    hkept, -, hlouder, -, hfadedIn, -, hfadedOut, -, hdelayed, ⟨-, rfl⟩ | ⟨hne, rfl⟩⟩ :=
    filters_forms h
  · exact ⟨by simp, by simpa using Heard.unchanged⟩
  · refine ⟨hne, ?_⟩
    simp only [List.forall_mem_append]
    exact ⟨⟨⟨⟨windowFilters_heard hkept, volumeFilters_heard hlouder⟩,
      fadeInFilters_heard hfadedIn⟩, fadeOutFilters_heard hfadedOut⟩, delayFilters_heard hdelayed⟩

/-- Silence is made and cut to its length. -/
theorem silence_eq_ok {sampleRate : Value} {n : Node} :
    silence sampleRate = .ok n ↔ ∃ r, sampleRate.optionText = .ok r ∧
      n = ⟨[], [.call "anullsrc" [.named "r" r, .named "cl" "stereo"],
        .call "atrim" [.named "duration" silenceSeconds]], .silence⟩ := by
  simp only [silence, bind_eq_ok, pure_eq_ok, FilterOption.of_eq_ok]
  constructor
  · rintro ⟨_, ⟨r, hr, rfl⟩, rfl⟩; exact ⟨r, hr, rfl⟩
  · rintro ⟨r, hr, rfl⟩; exact ⟨_, ⟨r, hr, rfl⟩, rfl⟩

end AudioTrack

end Storyboard
