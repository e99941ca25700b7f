import Storyboard.Compile
import Storyboard.Proofs.Compile.Run

/-!
# Storyboard.Proofs.Compile.Step

What one step of compilation can do.  The background of a scene, a layer and a track are
the steps that register a file; each has one inductive relation with a case for every way
in which it succeeds, guards included, and an equivalence that says that these are all.
Everything that is proved about a graph is proved by cases on these relations, and from
them along the lists of layers, scenes and tracks; no later proof opens a step again.

* `gives_backgroundNode`, `gives_layerNodes`, `gives_track` — the three steps;
* `gives_layersNodes_cons`, `gives_compileScenes_cons`, `gives_compileAll_cons` — a list of
  them is made one after another;
* `joints_cons_eq_ok`, `gives_mix`, `gives_build`, `compile_eq_ok` — what joins them into a
  graph.
-/

namespace Storyboard

open Build

/-! ## a background -/

namespace Scene

variable {output : Output} {scene : Scene} {i j : Int} {s s' : Inputs} {n : Node}

/-- The statement that a scene's background becomes, and the inputs that it leaves. -/
inductive BackgroundStep (output : Output) (scene : Scene) (i : Int) (s : Inputs) :
    Node → Inputs → Prop
  | color {value : String} {rate drawn : Filter} (hbackground : scene.background = .color value)
      (hrate : output.toRate = .ok rate)
      (hdrawn : output.plainColor value scene.duration = .ok drawn) :
      BackgroundStep output scene i s ⟨[], [drawn, toPixelFormat], .background i⟩ s
  | gradient {color : String} {more : List String} {direction : String} {rate drawn : Filter}
      (hbackground : scene.background = .gradient (color :: more) direction)
      (hrate : output.toRate = .ok rate)
      (hdrawn : output.plainColor color scene.duration = .ok drawn) :
      BackgroundStep output scene i s ⟨[], [drawn, toPixelFormat], .background i⟩ s
  | image {src : String} {rate : Filter} {fitted : List Filter} {lasting : FilterOption}
      (hbackground : scene.background = .image src) (hsrc : src ≠ "")
      (hrate : output.toRate = .ok rate) (hfitted : output.letterbox = .ok fitted)
      (hlasting : FilterOption.of "duration" scene.duration = .ok lasting) :
      BackgroundStep output scene i s
        ⟨[.input s.paths.length .video],
          [.call "loop" [.named "loop" "-1", .named "size" "1", .named "start" "0"], fromZero]
            ++ fitted ++ [.call "trim" [lasting], fromZero, rate, toPixelFormat],
          .background i⟩ (s.extend [src])
  | video {src : String} {trim : Trim} {rate : Filter} {fitted : List Filter}
      {start length stop : Decimal} (hbackground : scene.background = .video src trim)
      (hsrc : src ≠ "") (hrate : output.toRate = .ok rate)
      (hstart : trim.start.toDecimal = .ok start) (hlength : scene.duration.toDecimal = .ok length)
      (hstop : start.add length = .ok stop)
      (hwritable : start.isWritable = true ∧ stop.isWritable = true)
      (hfitted : output.letterbox = .ok fitted) :
      BackgroundStep output scene i s
        ⟨[.input s.paths.length .video],
          [cut start stop, fromZero] ++ fitted ++ [rate, toPixelFormat], .background i⟩
        (s.extend [src])

theorem gives_backgroundNode :
    Gives (backgroundNode output scene i) s n s' ↔ BackgroundStep output scene i s n s' := by
  constructor
  · intro h
    simp only [backgroundNode, gives_lift_bind] at h
    obtain ⟨rate, hrate, h⟩ := h
    split at h
    · next value hb =>
      simp only [gives_lift_bind, gives_pure] at h
      obtain ⟨drawn, hdrawn, rfl, rfl⟩ := h
      exact .color hb hrate hdrawn
    · next color more direction hb =>
      simp only [gives_lift_bind, gives_pure] at h
      obtain ⟨drawn, hdrawn, rfl, rfl⟩ := h
      exact .gradient hb hrate hdrawn
    · exact absurd h not_gives_throw
    · next src hb =>
      simp only [gives_register_bind, gives_lift_bind, gives_pure] at h
      obtain ⟨hsrc, fitted, hfitted, lasting, hlasting, rfl, rfl⟩ := h
      exact .image hb hsrc hrate hfitted hlasting
    · next src trim hb =>
      simp only [gives_register_bind, gives_lift_bind, gives_pure, Decimal.written_eq_ok] at h
      obtain ⟨hsrc, start, hstart, length, hlength, stop, hstop, _, ⟨hfirst, rfl⟩, _, ⟨hlast, rfl⟩,
        fitted, hfitted, rfl, rfl⟩ := h
      exact .video hb hsrc hrate hstart hlength hstop ⟨hfirst, hlast⟩ hfitted
    · exact absurd h not_gives_throw
  · intro h
    cases h with
    | color hb hrate hdrawn =>
      simp only [backgroundNode, hb, gives_lift_bind, gives_pure]
      exact ⟨_, hrate, _, hdrawn, rfl, trivial⟩
    | gradient hb hrate hdrawn =>
      simp only [backgroundNode, hb, gives_lift_bind, gives_pure]
      exact ⟨_, hrate, _, hdrawn, rfl, trivial⟩
    | image hb hsrc hrate hfitted hlasting =>
      simp only [backgroundNode, hb, gives_register_bind, gives_lift_bind, gives_pure]
      exact ⟨_, hrate, hsrc, _, hfitted, _, hlasting, rfl, trivial⟩
    | video hb hsrc hrate hstart hlength hstop hwritable hfitted =>
      simp only [backgroundNode, hb, gives_register_bind, gives_lift_bind, gives_pure,
        Decimal.written_eq_ok]
      exact ⟨_, hrate, hsrc, _, hstart, _, hlength, _, hstop, _, ⟨hwritable.1, rfl⟩, _,
        ⟨hwritable.2, rfl⟩, _, hfitted, rfl, trivial⟩

/-! ## a layer -/

/-- The filter that lays an element over a scene. -/
def overlayFilter (x y : String) (window : Option Window) : Filter :=
  .call "overlay" ([.named "x" x, .named "y" y] ++ Window.options window)

/-- An element in shape is laid over a scene by two statements. -/
theorem overlayNodes_eq_ok {k : Nat} {shape : List Filter} {position : Position}
    {start duration : Value} {under : Pad} {nodes : List Node} :
    overlayNodes i j k shape position start duration under = .ok nodes ↔
      ∃ x y window, position.resolve .overlay = .ok (x, y) ∧
        Window.of start duration = .ok window ∧
        nodes = [⟨[.input k .video], shape, .media i j⟩,
          ⟨[under, .media i j], [overlayFilter x y window], .layer i j⟩] := by
  simp only [overlayNodes, bind_eq_ok, pure_eq_ok, Prod.exists]
  constructor
  · rintro ⟨x, y, hposition, window, hwindow, rfl⟩
    exact ⟨x, y, window, hposition, hwindow, rfl⟩
  · rintro ⟨x, y, window, hposition, hwindow, rfl⟩
    exact ⟨x, y, hposition, window, hwindow, rfl⟩

/-- The statements that a layer becomes, and the inputs that it leaves. -/
inductive LayerStep (base : String) (scene : Scene) (i j : Int) (under : Pad) (s : Inputs) :
    Layer → List Node → Inputs → Prop
  | text {l : TextLayer} {drawn : Filter} (hdrawn : l.filter base = .ok drawn) :
      LayerStep base scene i j under s (.text l) [⟨[under], [drawn], .layer i j⟩] s
  | image {l : ImageLayer} {shape : List Filter} {x y : String} {window : Option Window}
      (hsrc : l.src ≠ "") (hshape : imageFilters l = .ok shape)
      (hposition : l.position.resolve .overlay = .ok (x, y))
      (hwindow : Window.of l.start l.duration = .ok window) :
      LayerStep base scene i j under s (.image l)
        [⟨[.input s.paths.length .video], shape, .media i j⟩,
          ⟨[under, .media i j], [overlayFilter x y window], .layer i j⟩] (s.extend [l.src])
  | video {l : VideoLayer} {shape : List Filter} {x y : String} {window : Option Window}
      (hsrc : l.src ≠ "") (hshape : clipFilters scene l = .ok shape)
      (hposition : l.position.resolve .overlay = .ok (x, y))
      (hwindow : Window.of l.start l.duration = .ok window) :
      LayerStep base scene i j under s (.video l)
        [⟨[.input s.paths.length .video], shape, .media i j⟩,
          ⟨[under, .media i j], [overlayFilter x y window], .layer i j⟩] (s.extend [l.src])
  | shape {l : ShapeLayer} {drawn : Filter} (hdrawn : l.filter = .ok drawn) :
      LayerStep base scene i j under s (.shape l) [⟨[under], [drawn], .layer i j⟩] s

theorem gives_layerNodes {base : String} {layer : Layer} {under : Pad} {nodes : List Node} :
    Gives (layerNodes base scene i j layer under) s nodes s' ↔
      LayerStep base scene i j under s layer nodes s' := by
  constructor
  · intro h
    cases layer with
    | text l =>
      simp only [layerNodes, gives_lift_bind, gives_pure] at h
      obtain ⟨drawn, hdrawn, rfl, rfl⟩ := h
      exact .text hdrawn
    | image l =>
      simp only [layerNodes, gives_register_bind, gives_lift_bind, gives_lift,
        overlayNodes_eq_ok] at h
      obtain ⟨hsrc, shape, hshape, ⟨x, y, window, hposition, hwindow, rfl⟩, rfl⟩ := h
      exact .image hsrc hshape hposition hwindow
    | video l =>
      simp only [layerNodes, gives_register_bind, gives_lift_bind, gives_lift,
        overlayNodes_eq_ok] at h
      obtain ⟨hsrc, shape, hshape, ⟨x, y, window, hposition, hwindow, rfl⟩, rfl⟩ := h
      exact .video hsrc hshape hposition hwindow
    | shape l =>
      simp only [layerNodes, gives_lift_bind, gives_pure] at h
      obtain ⟨drawn, hdrawn, rfl, rfl⟩ := h
      exact .shape hdrawn
    | other kind form => exact absurd h not_gives_throw
  · intro h
    cases h with
    | text hdrawn =>
      simp only [layerNodes, gives_lift_bind, gives_pure]
      exact ⟨_, hdrawn, rfl, trivial⟩
    | image hsrc hshape hposition hwindow =>
      simp only [layerNodes, gives_register_bind, gives_lift_bind, gives_lift, overlayNodes_eq_ok]
      exact ⟨hsrc, _, hshape, ⟨_, _, _, hposition, hwindow, rfl⟩, trivial⟩
    | video hsrc hshape hposition hwindow =>
      simp only [layerNodes, gives_register_bind, gives_lift_bind, gives_lift, overlayNodes_eq_ok]
      exact ⟨hsrc, _, hshape, ⟨_, _, _, hposition, hwindow, rfl⟩, trivial⟩
    | shape hdrawn =>
      simp only [layerNodes, gives_lift_bind, gives_pure]
      exact ⟨_, hdrawn, rfl, trivial⟩

/-! ## layers one after another -/

theorem gives_layersNodes_nil {base : String} {under pad : Pad} {nodes : List Node} :
    Gives (layersNodes base scene i j under []) s (nodes, pad) s' ↔
      nodes = [] ∧ pad = under ∧ s' = s := by
  simp only [layersNodes, gives_pure, Prod.mk.injEq, and_assoc]

theorem gives_layersNodes_cons {base : String} {layer : Layer} {rest : List Layer}
    {under pad : Pad} {nodes : List Node} :
    Gives (layersNodes base scene i j under (layer :: rest)) s (nodes, pad) s' ↔
      ∃ first t more, LayerStep base scene i j under s layer first t ∧
        Gives (layersNodes base scene i (j + 1) (.layer i j) rest) t (more, pad) s' ∧
        nodes = first ++ more := by
  simp only [layersNodes, gives_bind, gives_layerNodes, gives_pure, Prod.exists, Prod.mk.injEq]
  constructor
  · rintro ⟨first, t, hfirst, more, pad', t', hmore, ⟨rfl, rfl⟩, rfl⟩
    exact ⟨first, t, more, hfirst, hmore, rfl⟩
  · rintro ⟨first, t, more, hfirst, hmore, rfl⟩
    exact ⟨first, t, hfirst, more, pad, s', hmore, ⟨rfl, rfl⟩, rfl⟩

/-- A scene is its background and then its layers. -/
theorem gives_scene {base : String} {pad : Pad} {nodes : List Node} :
    Gives (compile output base scene i) s (nodes, pad) s' ↔
      ∃ background t more, BackgroundStep output scene i s background t ∧
        Gives (layersNodes base scene i 0 background.output scene.layers) t (more, pad) s' ∧
        nodes = background :: more := by
  simp only [compile, gives_bind, gives_backgroundNode, gives_pure, Prod.exists, Prod.mk.injEq]
  constructor
  · rintro ⟨background, t, hb, more, pad', t', hmore, ⟨rfl, rfl⟩, rfl⟩
    exact ⟨background, t, more, hb, hmore, rfl⟩
  · rintro ⟨background, t, more, hb, hmore, rfl⟩
    exact ⟨background, t, hb, more, pad, s', hmore, ⟨rfl, rfl⟩, rfl⟩

end Scene

/-! ## scenes one after another -/

namespace Specification

variable {output : Output} {base : String} {i : Int} {s s' : Inputs} {nodes : List Node}
  {pads : List Pad}

theorem gives_compileScenes_nil :
    Gives (compileScenes output base i []) s (nodes, pads) s' ↔
      nodes = [] ∧ pads = [] ∧ s' = s := by
  simp only [compileScenes, gives_pure, Prod.mk.injEq, and_assoc]

theorem gives_compileScenes_cons {scene : Scene} {rest : List Scene} :
    Gives (compileScenes output base i (scene :: rest)) s (nodes, pads) s' ↔
      ∃ first pad t more others, Gives (scene.compile output base i) s (first, pad) t ∧
        Gives (compileScenes output base (i + 1) rest) t (more, others) s' ∧
        nodes = first ++ more ∧ pads = pad :: others := by
  simp only [compileScenes, gives_bind, gives_pure, Prod.exists, Prod.mk.injEq]
  constructor
  · rintro ⟨first, pad, t, hfirst, more, others, t', hmore, ⟨rfl, rfl⟩, rfl⟩
    exact ⟨first, pad, t, more, others, hfirst, hmore, rfl, rfl⟩
  · rintro ⟨first, pad, t, more, others, hfirst, hmore, rfl, rfl⟩
    exact ⟨first, pad, t, hfirst, more, others, s', hmore, ⟨rfl, rfl⟩, rfl⟩

end Specification

/-! ## tracks -/

namespace AudioTrack

variable {anchor : Anchor} {track : AudioTrack} {t : Int} {s s' : Inputs} {n : Node}

/-- The statement that a track becomes, and the inputs that it leaves. -/
inductive TrackStep (anchor : Anchor) (track : AudioTrack) (t : Int) (s : Inputs) :
    Node → Inputs → Prop
  | track {fs : List Filter} (hsrc : track.src ≠ "") (hfilters : filters anchor track = .ok fs) :
      TrackStep anchor track t s ⟨[.input s.paths.length .audio], fs, .track t⟩
        (s.extend [track.src])

theorem gives_track :
    Gives (compile anchor track t) s n s' ↔ TrackStep anchor track t s n s' := by
  simp only [compile, gives_register_bind, gives_lift_bind, gives_pure]
  constructor
  · rintro ⟨hsrc, fs, hfilters, rfl, rfl⟩
    exact .track hsrc hfilters
  · rintro ⟨hsrc, hfilters⟩
    exact ⟨hsrc, _, hfilters, rfl, rfl⟩

theorem gives_compileAll_nil {nodes : List Node} :
    Gives (compileAll anchor t []) s nodes s' ↔ nodes = [] ∧ s' = s := by
  simp only [compileAll, gives_pure]

theorem gives_compileAll_cons {rest : List AudioTrack} {nodes : List Node} :
    Gives (compileAll anchor t (track :: rest)) s nodes s' ↔
      ∃ first u more, TrackStep anchor track t s first u ∧
        Gives (compileAll anchor (t + 1) rest) u more s' ∧ nodes = first :: more := by
  simp only [compileAll, gives_bind, gives_track, gives_pure]
  constructor
  · rintro ⟨first, u, hfirst, more, u', hmore, rfl, rfl⟩
    exact ⟨first, u, more, hfirst, hmore, rfl⟩
  · rintro ⟨first, u, more, hfirst, hmore, rfl⟩
    exact ⟨first, u, hfirst, more, s', hmore, rfl, rfl⟩

/-- The statement that mixes the pads of several tracks. -/
def mixNode (pads : List Pad) : Node :=
  ⟨pads, [.call "amix" [.named "inputs" pads.length.repr, .named "dropout_transition" "0"]], .mix⟩

/-- How the statements of the tracks end in one pad: silence, the one track, or a mix. -/
inductive Mixdown (sampleRate : Value) : List Node → List Node → Pad → Prop
  | silence {node : Node} (hsilence : silence sampleRate = .ok node) :
      Mixdown sampleRate [] [node] .silence
  | single (node : Node) : Mixdown sampleRate [node] [node] node.output
  | mix (a b : Node) (rest : List Node) :
      Mixdown sampleRate (a :: b :: rest)
        (a :: b :: rest ++ [mixNode ((a :: b :: rest).map Node.output)]) .mix

theorem gives_mix {sampleRate : Value} {tracks : List AudioTrack} {nodes : List Node} {pad : Pad} :
    Gives (mix anchor sampleRate tracks) s (nodes, pad) s' ↔
      ∃ heard, Gives (compileAll anchor 0 tracks) s heard s' ∧
        Mixdown sampleRate heard nodes pad := by
  simp only [mix, gives_bind]
  constructor
  · rintro ⟨heard, u, hheard, h⟩
    split at h
    · simp only [gives_lift_bind, gives_pure, Prod.mk.injEq] at h
      obtain ⟨node, hsilence, ⟨rfl, rfl⟩, rfl⟩ := h
      exact ⟨[], hheard, .silence hsilence⟩
    · next node =>
      simp only [gives_pure, Prod.mk.injEq] at h
      obtain ⟨⟨rfl, rfl⟩, rfl⟩ := h
      exact ⟨[node], hheard, .single node⟩
    · next hnil hone =>
      simp only [gives_pure, Prod.mk.injEq] at h
      obtain ⟨⟨rfl, rfl⟩, rfl⟩ := h
      match heard, hnil, hone, hheard with
      | [], hnil, _, _ => exact absurd rfl hnil
      | [node], _, hone, _ => exact absurd rfl (hone node)
      | a :: b :: rest, _, _, hheard => exact ⟨a :: b :: rest, hheard, .mix a b rest⟩
  · rintro ⟨heard, hheard, h⟩
    refine ⟨heard, s', hheard, ?_⟩
    cases h with
    | silence hsilence =>
      simp only [gives_lift_bind, gives_pure]
      exact ⟨_, hsilence, rfl, trivial⟩
    | single node => exact gives_pure.2 ⟨rfl, rfl⟩
    | mix a b rest => exact gives_pure.2 ⟨rfl, rfl⟩

end AudioTrack

/-! ## joints -/

namespace Transition

variable {last scene : Scene} {joined pad out : Pad} {running : Decimal} {k : Int}
  {rest : List (Scene × Pad)} {nodes : List Node}

theorem joints_nil_eq_ok :
    joints last joined running k [] = .ok (nodes, out) ↔ nodes = [] ∧ out = joined := by
  constructor
  · intro h; cases h; exact ⟨rfl, rfl⟩
  · rintro ⟨rfl, rfl⟩; rfl

/-- A joint lays the next scene over what was joined before it. -/
theorem joints_cons_eq_ok :
    joints last joined running k ((scene, pad) :: rest) = .ok (nodes, out) ↔
      ∃ duration left offset length longer next more,
        last.transition.duration.toDecimal = .ok duration ∧ running.sub duration = .ok left ∧
        Decimal.zero.greater left = .ok offset ∧
        (duration.isWritable = true ∧ offset.isWritable = true) ∧
        scene.duration.toDecimal = .ok length ∧ running.add length = .ok longer ∧
        longer.sub duration = .ok next ∧
        joints scene (.transition k) next (k + 1) rest = .ok (more, out) ∧
        nodes = ⟨[joined, pad], [filter last.transition.type duration offset], .transition k⟩ ::
          more := by
  simp only [joints, bind_eq_ok, pure_eq_ok, Prod.exists, Prod.mk.injEq, Decimal.written_eq_ok]
  constructor
  · rintro ⟨duration, hduration, left, hleft, offset, hoffset, _, ⟨hlasting, rfl⟩, _, ⟨hfrom, rfl⟩,
      length, hlength, longer, hlonger, next, hnext, more, out', hmore, rfl, rfl⟩
    exact ⟨_, left, _, length, longer, next, more, hduration, hleft, hoffset, ⟨hlasting, hfrom⟩,
      hlength, hlonger, hnext, hmore, rfl⟩
  · rintro ⟨duration, left, offset, length, longer, next, more, hduration, hleft, hoffset,
      ⟨hlasting, hfrom⟩, hlength, hlonger, hnext, hmore, rfl⟩
    exact ⟨duration, hduration, left, hleft, offset, hoffset, duration, ⟨hlasting, rfl⟩, offset,
      ⟨hfrom, rfl⟩, length, hlength, longer, hlonger, next, hnext, more, out, hmore, rfl, rfl⟩

/-- If the first scene has a length, the others are joined to it one after another. -/
theorem chain_cons_of_eq_ok {scenes : List Scene} {pads : List Pad}
    (hpads : pads.length = scenes.length) (h : scene.duration.toDecimal = .ok running) :
    chain (scene :: scenes) (pad :: pads) = joints scene pad running 1 (scenes.zip pads) := by
  have hlength : ¬ (pad :: pads).length ≠ (scene :: scenes).length := by simpa using hpads
  rw [chain, if_neg hlength, List.zip_cons_cons]
  cases scenes.zip pads with
  | nil => rfl
  | cons p rest =>
    show (scene.duration.toDecimal >>= fun running => joints scene pad running 1 (p :: rest)) = _
    rw [h]
    rfl

/-- Scenes are joined from the first on; one scene alone stays as it is. -/
theorem chain_forms {scenes : List Scene} {pads : List Pad}
    (h : chain scenes pads = .ok (nodes, out)) :
    ∃ scene pad rest running, scenes.zip pads = (scene, pad) :: rest ∧
      pads = pad :: rest.map Prod.snd ∧ joints scene pad running 1 rest = .ok (nodes, out) := by
  unfold chain at h
  split at h
  · exact absurd h (by simp)
  · next hlength =>
    have hpads : pads = (scenes.zip pads).map Prod.snd :=
      (List.map_snd_zip (Nat.le_of_eq (Decidable.not_not.1 hlength))).symm
    split at h
    · exact absurd h (by simp)
    · next scene pad hzip =>
      rw [hzip] at hpads
      exact ⟨scene, pad, [], .zero, hzip, hpads, h⟩
    · next scene pad rest _ hzip =>
      rw [hzip] at hpads
      obtain ⟨running, -, h⟩ := bind_eq_ok.1 h
      exact ⟨scene, pad, rest, running, hzip, hpads, h⟩

end Transition

/-! ## a whole graph -/

namespace Specification

/-- All scenes are made, then joined, then the tracks are made and mixed. -/
theorem gives_build {spec : Specification} {base anchor : String} {s s' : Inputs}
    {nodes : List Node} {videoPad audioPad : Pad} :
    Gives (spec.build base anchor) s (nodes, videoPad, audioPad) s' ↔
      ∃ sceneNodes pads t joints mode soundNodes,
        Gives (compileScenes spec.output base 0 spec.scenes) s (sceneNodes, pads) t ∧
        Transition.chain spec.scenes pads = .ok (joints, videoPad) ∧
        Anchor.ofName anchor = .ok mode ∧
        Gives (AudioTrack.mix mode spec.output.sampleRate spec.audio.tracks) t
          (soundNodes, audioPad) s' ∧
        nodes = sceneNodes ++ joints ++ soundNodes := by
  simp only [build, gives_bind, gives_lift, gives_pure, Prod.exists, Prod.mk.injEq]
  constructor
  · rintro ⟨sceneNodes, pads, _, hscenes, joints, video, _, ⟨hchain, rfl⟩, mode, t, ⟨hmode, rfl⟩,
      soundNodes, audio, t', hsound, ⟨rfl, rfl, rfl⟩, rfl⟩
    exact ⟨sceneNodes, pads, t, joints, mode, soundNodes, hscenes, hchain, hmode, hsound, rfl⟩
  · rintro ⟨sceneNodes, pads, t, joints, mode, soundNodes, hscenes, hchain, hmode, hsound, rfl⟩
    exact ⟨sceneNodes, pads, t, hscenes, joints, videoPad, t, ⟨hchain, rfl⟩, mode, t, ⟨hmode, rfl⟩,
      soundNodes, audioPad, s', hsound, ⟨rfl, rfl, rfl⟩, rfl⟩

/-- A graph is what a specification with a scene gives from no inputs. -/
theorem compile_eq_ok {spec : Specification} {base anchor : String} {g : Graph} :
    spec.compile base anchor = .ok g ↔ spec.scenes ≠ [] ∧ ∃ s,
      Gives (spec.build base anchor) ⟨base, []⟩ (g.nodes, g.videoPad, g.audioPad) s ∧
      g.inputs = s.paths := by
  by_cases hscenes : spec.scenes = []
  · constructor
    · intro h
      simp only [compile, hscenes, List.isEmpty_nil, if_true] at h
      cases h
    · rintro ⟨hne, -⟩
      exact absurd hscenes hne
  · have hempty : spec.scenes.isEmpty = false := by simpa using hscenes
    rcases hrun : (spec.build base anchor).run.run ⟨base, []⟩ with ⟨_ | ⟨nodes, v, a⟩, s⟩
    · simp only [compile, hempty, hrun, Gives, Bool.false_eq_true, if_false]
      constructor
      · intro h; cases h
      · rintro ⟨-, s', h, -⟩; cases h
    · simp only [compile, hempty, hrun, Gives, Bool.false_eq_true, if_false]
      constructor
      · intro h; cases h; exact ⟨hscenes, s, rfl, rfl⟩
      · rintro ⟨-, s', h, hinputs⟩
        cases h
        rw [← hinputs]
        rfl

end Specification

end Storyboard
