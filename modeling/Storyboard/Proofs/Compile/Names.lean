import Storyboard.Proofs.Compile.Origin

/-!
# Storyboard.Proofs.Compile.Names

What the filters of a compiled graph are called.  Every statement has a filter, every filter
has a name, only the statement that mixes tracks has a filter that mixes, and only the statements
that join scenes have one that joins.

* `Specification.Origin.isPlain_or_mix` — a statement mixes nothing, unless it is the mix;
* `Specification.Origin.exists_joint` — a statement joins nothing, unless it is a joint;
* `Specification.Origin.chain_ne_empty` — something stands between the pads of a statement.
-/

namespace Storyboard

/-! ## the names of filters -/

namespace Filter

/-- The names of the filters that mix nothing. -/
def plainNames : List String :=
  ["color", "format", "fps", "loop", "setpts", "scale", "pad", "trim", "colorchannelmixer",
    "overlay", "drawtext", "drawbox", "xfade", "atrim", "asetpts", "volume", "afade", "adelay",
    "anull", "anullsrc"]

/-- A filter that mixes nothing. -/
def IsPlain (f : Filter) : Prop := ∃ name ∈ plainNames, ∃ options, f = .call name options

theorem isPlain_call {name : String} {options : List FilterOption} (h : name ∈ plainNames) :
    IsPlain (.call name options) :=
  ⟨name, h, options, rfl⟩

/-- The names of the filters that make a scene. -/
def sceneNames : List String :=
  ["color", "format", "fps", "loop", "setpts", "scale", "pad", "trim", "colorchannelmixer",
    "overlay", "drawtext", "drawbox"]

/-- A filter that takes part in a scene. -/
def IsOfScene (f : Filter) : Prop := ∃ name ∈ sceneNames, ∃ options, f = .call name options

theorem isOfScene_call {name : String} {options : List FilterOption} (h : name ∈ sceneNames) :
    IsOfScene (.call name options) :=
  ⟨name, h, options, rfl⟩

/-- It mixes nothing. -/
theorem IsOfScene.isPlain {f : Filter} (h : f.IsOfScene) : f.IsPlain := by
  obtain ⟨name, hname, options, rfl⟩ := h
  have hall : ∀ name ∈ sceneNames, name ∈ plainNames := by decide
  exact isPlain_call (hall name hname)

/-- A filter is called by its name, whatever its options. -/
theorem name_call {name : String} {options : List FilterOption} (h : '=' ∉ name.toList) :
    (Filter.call name options).name = name := by
  have hbefore (cs : List Char) : (name.toList ++ cs).takeWhile (· ≠ '=')
      = name.toList ++ cs.takeWhile (· ≠ '=') := by
    refine List.takeWhile_append_of_pos ?_
    intro c hc
    simpa using fun heq : c = '=' => h (heq ▸ hc)
  cases options with
  | nil =>
    have hname := hbefore []
    rw [List.append_nil, List.takeWhile_nil, List.append_nil] at hname
    rw [Filter.name, text_call_nil, hname, String.ofList_toList]
  | cons o os =>
    have htext : (Filter.call name (o :: os)).text.toList = name.toList ++
        '=' :: (String.intercalate ":" ((o :: os).map FilterOption.text)).toList := by
      simp [text]
    rw [Filter.name, htext, hbefore, List.takeWhile_cons_of_neg (by simp), List.append_nil,
      String.ofList_toList]

theorem name_call_ne {name other : String} {options : List FilterOption} (hne : name ≠ other)
    (h : '=' ∉ name.toList) : (Filter.call name options).name ≠ other := by
  rwa [name_call h]

theorem IsPlain.name_mem {f : Filter} (h : f.IsPlain) : f.name ∈ plainNames := by
  obtain ⟨name, hname, options, rfl⟩ := h
  have hall : ∀ name ∈ plainNames, '=' ∉ name.toList := by decide
  rw [name_call (hall name hname)]
  exact hname

theorem IsPlain.name_ne_amix {f : Filter} (h : f.IsPlain) : f.name ≠ "amix" := by
  intro hname
  exact absurd (hname ▸ h.name_mem) (by decide)

theorem IsOfScene.name_ne_xfade {f : Filter} (h : f.IsOfScene) : f.name ≠ "xfade" := by
  obtain ⟨name, hname, options, rfl⟩ := h
  have hall : ∀ name ∈ sceneNames, '=' ∉ name.toList ∧ name ≠ "xfade" := by decide
  obtain ⟨hplain, hne⟩ := hall name hname
  exact name_call_ne hne hplain

end Filter

/-! ## the filters of scenes -/

theorem Output.isOfScene_toRate {output : Output} {f : Filter} (h : output.toRate = .ok f) :
    f.IsOfScene := by
  obtain ⟨t, -, rfl⟩ := toRate_eq_ok.1 h
  exact Filter.isOfScene_call (by decide)

theorem Output.isOfScene_letterbox {output : Output} {fs : List Filter}
    (h : output.letterbox = .ok fs) : ∀ f ∈ fs, f.IsOfScene := by
  obtain ⟨w, h, -, -, rfl⟩ := letterbox_eq_ok.1 h
  simp only [List.forall_mem_cons]
  exact ⟨Filter.isOfScene_call (by decide), Filter.isOfScene_call (by decide), by simp⟩

theorem isOfScene_opacityFilters {opacity : Value} {fs : List Filter}
    (h : opacityFilters opacity = .ok fs) : ∀ f ∈ fs, f.IsOfScene := by
  obtain rfl | ⟨a, -, rfl⟩ := opacityFilters_forms h
  · simp only [List.forall_mem_cons]
    exact ⟨Filter.isOfScene_call (by decide), by simp⟩
  · simp only [List.forall_mem_cons]
    exact ⟨Filter.isOfScene_call (by decide), Filter.isOfScene_call (by decide),
      Filter.isOfScene_call (by decide), by simp⟩

theorem Scene.isOfScene_imageFilters {layer : ImageLayer} {fs : List Filter}
    (h : imageFilters layer = .ok fs) : ∀ f ∈ fs, f.IsOfScene := by
  obtain ⟨scaled, shown, hscaled, hshown, rfl⟩ := imageFilters_eq_ok.1 h
  obtain ⟨w, h, -, -, rfl⟩ := Size.scale_eq_ok.1 hscaled
  rw [List.forall_mem_cons]
  exact ⟨Filter.isOfScene_call (by decide), isOfScene_opacityFilters hshown⟩

theorem Scene.isOfScene_clipFilters {scene : Scene} {layer : VideoLayer} {fs : List Filter}
    (h : clipFilters scene layer = .ok fs) : ∀ f ∈ fs, f.IsOfScene := by
  obtain ⟨start, stop, moved, scaled, shown, -, -, -, hmoved, hscaled, hshown, rfl⟩ :=
    clipFilters_eq_ok.1 h
  obtain ⟨w, h, -, -, rfl⟩ := Size.scale_eq_ok.1 hscaled
  have hmoved : moved.IsOfScene := by
    obtain rfl | ⟨d, rfl⟩ := fromStart_forms hmoved
    · exact Filter.isOfScene_call (by decide)
    · exact Filter.isOfScene_call (by decide)
  simp only [List.forall_mem_cons]
  exact ⟨Filter.isOfScene_call (by decide), hmoved, Filter.isOfScene_call (by decide),
    isOfScene_opacityFilters hshown⟩

theorem Scene.BackgroundStep.isOfScene {output : Output} {scene : Scene} {i : Int} {s s' : Inputs}
    {n : Node} (h : BackgroundStep output scene i s n s') : ∀ f ∈ n.filters, f.IsOfScene := by
  cases h with
  | color hbackground hrate hdrawn | gradient hbackground hrate hdrawn =>
    obtain ⟨s, d, r, -, -, -, rfl⟩ := Output.plainColor_eq_ok.1 hdrawn
    simp only [List.forall_mem_cons]
    exact ⟨Filter.isOfScene_call (by decide), Filter.isOfScene_call (by decide), by simp⟩
  | image hbackground hsrc hrate hfitted hlasting =>
    simp only [List.forall_mem_append, List.forall_mem_cons]
    exact ⟨⟨⟨Filter.isOfScene_call (by decide), Filter.isOfScene_call (by decide), by simp⟩,
      Output.isOfScene_letterbox hfitted⟩, Filter.isOfScene_call (by decide),
      Filter.isOfScene_call (by decide), Output.isOfScene_toRate hrate,
      Filter.isOfScene_call (by decide), by simp⟩
  | video hbackground hsrc hrate hstart hlength hstop hwritable hfitted =>
    simp only [List.forall_mem_append, List.forall_mem_cons]
    exact ⟨⟨⟨Filter.isOfScene_call (by decide), Filter.isOfScene_call (by decide), by simp⟩,
      Output.isOfScene_letterbox hfitted⟩, Output.isOfScene_toRate hrate,
      Filter.isOfScene_call (by decide), by simp⟩

theorem Scene.LayerStep.isOfScene {base : String} {scene : Scene} {i j : Int} {under : Pad}
    {s s' : Inputs} {layer : Layer} {nodes : List Node}
    (h : LayerStep base scene i j under s layer nodes s') :
    ∀ n ∈ nodes, ∀ f ∈ n.filters, f.IsOfScene := by
  cases h with
  | text hdrawn =>
    obtain ⟨_, _, _, _, _, _, _, -, -, -, -, -, rfl⟩ := TextLayer.filter_forms hdrawn
    simpa using Filter.isOfScene_call (by decide)
  | image hsrc hshape hposition hwindow =>
    simp only [List.forall_mem_cons]
    exact ⟨isOfScene_imageFilters hshape, ⟨Filter.isOfScene_call (by decide), by simp⟩, by simp⟩
  | video hsrc hshape hposition hwindow =>
    simp only [List.forall_mem_cons]
    exact ⟨isOfScene_clipFilters hshape, ⟨Filter.isOfScene_call (by decide), by simp⟩, by simp⟩
  | shape hdrawn =>
    obtain ⟨_, _, _, _, _, _, -, -, -, -, -, rfl⟩ := ShapeLayer.filter_forms hdrawn
    simpa using Filter.isOfScene_call (by decide)

/-! ## only the mix mixes, only the joints join -/

theorem AudioTrack.Heard.isPlain {f : Filter} (h : Heard f) : f.IsPlain := by
  cases h <;> exact Filter.isPlain_call (by decide)

/-- A statement mixes nothing, unless it is the mix. -/
theorem Specification.Origin.isPlain_or_mix {spec : Specification} {base : String} {n : Node}
    (h : spec.Origin base n) :
    (∀ f ∈ n.filters, f.IsPlain) ∨ ∃ pads, n = AudioTrack.mixNode pads := by
  cases h with
  | background hscene hstep => exact .inl fun f hf => (hstep.isOfScene f hf).isPlain
  | layer hscene hlayer hstep hn => exact .inl fun f hf => (hstep.isOfScene n hn f hf).isPlain
  | joint offset k hlast hduration =>
    simp only [List.forall_mem_cons]
    exact .inl ⟨Filter.isPlain_call (by decide), by simp⟩
  | track htrack hstep =>
    cases hstep with
    | track hsrc hfilters =>
      exact .inl fun f hf => ((AudioTrack.filters_heard hfilters).2 f hf).isPlain
  | silence hsilence =>
    obtain ⟨r, -, rfl⟩ := AudioTrack.silence_eq_ok.1 hsilence
    simp only [List.forall_mem_cons]
    exact .inl ⟨Filter.isPlain_call (by decide), Filter.isPlain_call (by decide), by simp⟩
  | mix pads => exact .inr ⟨pads, rfl⟩

theorem AudioTrack.Heard.name_ne_xfade {f : Filter} (h : Heard f) : f.name ≠ "xfade" := by
  cases h <;> exact Filter.name_call_ne (by decide) (by decide)

/-- A statement joins nothing, unless it is a joint. -/
theorem Specification.Origin.exists_joint {spec : Specification} {base : String} {n : Node}
    (h : spec.Origin base n) {f : Filter} (hf : f ∈ n.filters) (hname : f.name = "xfade") :
    ∃ k, n.output = .transition k := by
  cases h with
  | background hscene hstep => exact absurd hname (hstep.isOfScene f hf).name_ne_xfade
  | layer hscene hlayer hstep hn => exact absurd hname (hstep.isOfScene n hn f hf).name_ne_xfade
  | joint offset k hlast hduration => exact ⟨k, rfl⟩
  | track htrack hstep =>
    cases hstep with
    | track hsrc hfilters =>
      exact absurd hname ((AudioTrack.filters_heard hfilters).2 f hf).name_ne_xfade
  | silence hsilence =>
    obtain ⟨r, -, rfl⟩ := AudioTrack.silence_eq_ok.1 hsilence
    simp only [List.mem_cons, List.not_mem_nil, or_false] at hf
    rcases hf with rfl | rfl
    · exact absurd hname (Filter.name_call_ne (by decide) (by decide))
    · exact absurd hname (Filter.name_call_ne (by decide) (by decide))
  | mix pads =>
    obtain rfl := List.mem_singleton.1 hf
    exact absurd hname (Filter.name_call_ne (by decide) (by decide))

/-! ## every statement has a filter -/

theorem Filter.IsPlain.text_ne_empty {f : Filter} (h : f.IsPlain) : f.text ≠ "" := by
  intro htext
  have hname := h.name_mem
  rw [Filter.name, htext] at hname
  exact absurd hname (by decide)

theorem Node.chain_ne_empty {n : Node} (hne : n.filters ≠ [])
    (h : ∀ f ∈ n.filters, f.text ≠ "") : n.chain ≠ "" := by
  obtain ⟨f, fs, hfs⟩ := List.exists_cons_of_ne_nil hne
  rw [hfs] at h
  have hf : f.text ≠ "" := h f List.mem_cons_self
  intro hchain
  have hchars := congrArg String.toList hchain
  rw [chain, hfs, String.toList_intercalate] at hchars
  cases fs with
  | nil => exact hf (by simpa using hchars)
  | cons f' fs => simp [List.intercalate_cons_cons] at hchars

theorem Scene.BackgroundStep.filters_ne_nil {output : Output} {scene : Scene} {i : Int}
    {s s' : Inputs} {n : Node} (h : BackgroundStep output scene i s n s') : n.filters ≠ [] := by
  cases h <;> simp

theorem Scene.LayerStep.filters_ne_nil {base : String} {scene : Scene} {i j : Int} {under : Pad}
    {s s' : Inputs} {layer : Layer} {nodes : List Node}
    (h : LayerStep base scene i j under s layer nodes s') : ∀ n ∈ nodes, n.filters ≠ [] := by
  cases h with
  | text hdrawn | shape hdrawn => simp
  | image hsrc hshape hposition hwindow =>
    obtain ⟨scaled, shown, -, -, rfl⟩ := imageFilters_eq_ok.1 hshape
    simp
  | video hsrc hshape hposition hwindow =>
    obtain ⟨start, stop, moved, scaled, shown, -, -, -, -, -, -, rfl⟩ := clipFilters_eq_ok.1 hshape
    simp

theorem Specification.Origin.filters_ne_nil {spec : Specification} {base : String} {n : Node}
    (h : spec.Origin base n) : n.filters ≠ [] := by
  cases h with
  | background hscene hstep => exact hstep.filters_ne_nil
  | layer hscene hlayer hstep hn => exact hstep.filters_ne_nil n hn
  | joint offset k hlast hduration => exact List.cons_ne_nil _ _
  | track htrack hstep =>
    cases hstep with
    | track hsrc hfilters => exact (AudioTrack.filters_heard hfilters).1
  | silence hsilence =>
    obtain ⟨r, -, rfl⟩ := AudioTrack.silence_eq_ok.1 hsilence
    exact List.cons_ne_nil _ _
  | mix pads => exact List.cons_ne_nil _ _

/-- Something stands between the pads of a statement. -/
theorem Specification.Origin.chain_ne_empty {spec : Specification} {base : String} {n : Node}
    (h : spec.Origin base n) : n.chain ≠ "" := by
  refine Node.chain_ne_empty h.filters_ne_nil ?_
  rcases h.isPlain_or_mix with hplain | ⟨pads, rfl⟩
  · intro f hf
    exact (hplain f hf).text_ne_empty
  · intro f hf
    obtain rfl := List.mem_singleton.1 hf
    simp [Filter.text]

end Storyboard
