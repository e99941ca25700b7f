import Storyboard.Proofs.Compile.Failure
import Storyboard.Proofs.Compile.InputFiles
import Storyboard.Proofs.Compile.Names
import Storyboard.Proofs.Compile.Offsets
import Storyboard.Proofs.Compile.OpenWindows
import Storyboard.Proofs.Graph.Footage
import Storyboard.Proofs.Value.Rate

/-!
# Storyboard.Proofs.Compile.Canvas

The size, the rate and the length at which scenes are shown.  A background of any kind is brought
to the size and the rate of the output and lasts as long as its scene; a layer keeps what it is
laid over; and a joint keeps the size and the rate of what it is laid over.  So every scene leaves
by a pad of one size and one rate, the joints find them on both sides, and the command line names
them.

* `Scene.BackgroundStep.footage`, `Scene.LayerStep.footage` — one step;
* `Scene.footage_compile`, `Specification.footage_compileScenes` — a scene and all scenes;
* `Specification.canvas_compile` — a graph.
-/

namespace Storyboard

open Build Value Number

/-! ## the texts of a size, a rate and a length -/

namespace Value

variable {v : Value} {t : String}

/-- A rate is written alike as an option and on the command line. -/
theorem optionText_of_isRate (h : Spec.Field.IsRate v) : v.optionText = v.rateText := by
  obtain ⟨q, rfl, -⟩ | ⟨x, hx, -⟩ := h
  · rfl
  · cases v with
    | int i => rfl
    | float y => rfl
    | _ => cases hx

/-- The option of an exact time denotes it. -/
theorem NothingOrExact.denotes_optionText (h : v.NothingOrExact) (hgiven : v ≠ .null)
    (ht : v.optionText = .ok t) : Numeral.Denotes t v.seconds := by
  have htext : v.numberText = .ok t := by
    obtain rfl | ⟨⟨q, hq, -⟩, -⟩ := h
    · exact absurd rfl hgiven
    · cases v with
      | int i | float x => exact ht
      | _ => cases hq
  obtain ⟨d, hd, -, rfl⟩ := numberText_eq_ok.1 htext
  exact (h.isMoment hd).denotes hd

end Value

/-- A size and a rate as they are written. -/
structure Canvas where
  size : String
  rate : String

/-- What is known of a stream with a canvas and a length. -/
def Canvas.footage (c : Canvas) (length? : Option ℚ) : Footage :=
  ⟨some c.size, some c.rate, length?⟩

namespace Output

variable {output : Output} {c : Canvas}

/-- The canvas of an output: its width and height, which are integers, and its rate. -/
structure HasCanvas (output : Output) (c : Canvas) : Prop where
  size : ∃ width height : Int, output.width = .int width ∧ output.height = .int height ∧
    c.size = width.repr ++ "x" ++ height.repr
  rate : output.fps.rateText = .ok c.rate

/-- What is read from a document has a canvas if its rate can be written. -/
theorem Accepted.exists_hasCanvas {f : Filter} (h : output.Accepted)
    (hrate : output.toRate = .ok f) : ∃ c, output.HasCanvas c := by
  obtain ⟨width, hwidth, -⟩ := h.width
  obtain ⟨height, hheight, -⟩ := h.height
  obtain ⟨r, hr, -⟩ := toRate_eq_ok.1 hrate
  rw [optionText_of_isRate h.fps] at hr
  exact ⟨⟨width.repr ++ "x" ++ height.repr, r⟩, ⟨width, height, hwidth, hheight, rfl⟩, hr⟩

namespace HasCanvas

/-- The size as one word is that of the canvas. -/
theorem canvas {s : String} (h : output.HasCanvas c) (hs : output.canvas = .ok s) : s = c.size := by
  obtain ⟨width, height, hwidth, hheight, hsize⟩ := h.size
  obtain ⟨w, k, hw, hk, rfl⟩ := canvas_eq_ok.1 hs
  rw [hwidth, plainText_int] at hw
  rw [hheight, plainText_int] at hk
  obtain ⟨-, rfl⟩ := integerText_eq_ok.1 hw
  obtain ⟨-, rfl⟩ := integerText_eq_ok.1 hk
  exact hsize.symm

/-- A picture that is fitted in is filled up to the canvas. -/
theorem letterbox {fs : List Filter} (h : output.HasCanvas c) (hfs : output.letterbox = .ok fs) :
    ∃ width height, c.size = width ++ "x" ++ height ∧
      fs = [.call "scale" [.plain width, .plain height,
          .named "force_original_aspect_ratio" "decrease"],
        .call "pad" [.plain width, .plain height, .plain "(ow-iw)/2", .plain "(oh-ih)/2"]] := by
  obtain ⟨width, height, hwidth, hheight, hsize⟩ := h.size
  obtain ⟨w, k, hw, hk, rfl⟩ := letterbox_eq_ok.1 hfs
  rw [hwidth] at hw
  rw [hheight] at hk
  obtain rfl := Except.ok.inj hw
  obtain rfl := Except.ok.inj hk
  rw [← Decimal.shortText_ofInt, ← Decimal.shortText_ofInt] at hsize
  exact ⟨_, _, hsize, rfl⟩

variable (hfps : Spec.Field.IsRate output.fps)

include hfps

theorem toRate {f : Filter} (h : output.HasCanvas c) (hf : output.toRate = .ok f) :
    f = .call "fps" [.plain c.rate] := by
  obtain ⟨r, hr, rfl⟩ := toRate_eq_ok.1 hf
  rw [optionText_of_isRate hfps, h.rate] at hr
  obtain rfl := Except.ok.inj hr
  rfl

theorem plainColor {color : String} {duration : Value} {f : Filter} (h : output.HasCanvas c)
    (hf : output.plainColor color duration = .ok f) :
    ∃ d, duration.optionText = .ok d ∧
      f = .call "color" [.named "c" color, .named "s" c.size, .named "d" d, .named "r" c.rate] := by
  obtain ⟨s, d, r, hs, hd, hr, rfl⟩ := plainColor_eq_ok.1 hf
  rw [optionText_of_isRate hfps, h.rate] at hr
  obtain rfl := Except.ok.inj hr
  exact ⟨d, hd, by rw [h.canvas hs]⟩

end HasCanvas

end Output

/-! ## one step -/

namespace Scene

open FilterOption

variable {output : Output} {c : Canvas} {base : String} {scene : Scene} {i j : Int} {s s' : Inputs}
  {n : Node} {nodes : List Node} {under pad : Pad} {known : Pad → Footage}

theorem footage_toPixelFormat {x : Footage} : toPixelFormat.footage x = x :=
  Filter.footage_of_transparent (by decide)

theorem footage_fromZero {x : Footage} : fromZero.footage x = x :=
  Filter.footage_of_transparent (by decide)

/-- A background is brought to the canvas and lasts as long as its scene, whatever it is made of. -/
theorem BackgroundStep.footage (hcanvas : output.HasCanvas c)
    (hfps : Spec.Field.IsRate output.fps) (hscene : scene.Accepted)
    (hexact : ∀ v ∈ scene.times, v.NothingOrExact) (h : BackgroundStep output scene i s n s') :
    n.footage known = c.footage (some scene.length) := by
  have hduration : scene.duration.NothingOrExact := hexact _ List.mem_cons_self
  have hgiven : scene.duration ≠ .null := ne_null_of_inRange hscene.duration
  cases h with
  | color hb hrate hdrawn | gradient hb hrate hdrawn =>
    obtain ⟨d, hd, rfl⟩ := hcanvas.plainColor hfps hdrawn
    have hread := Numeral.read?_of_denotes (hduration.denotes_optionText hgiven hd)
    simp [Node.footage, footage_toPixelFormat, hread, Canvas.footage, Scene.length]
  | image hb hsrc hrate hfitted hlasting =>
    obtain ⟨width, height, hsize, rfl⟩ := hcanvas.letterbox hfitted
    obtain rfl := hcanvas.toRate hfps hrate
    obtain ⟨d, hd, rfl⟩ := FilterOption.of_eq_ok.1 hlasting
    have hread := Numeral.read?_of_denotes (hduration.denotes_optionText hgiven hd)
    simp [Node.footage, footage_toPixelFormat, footage_fromZero, Filter.paddedSize?,
      Filter.cutLength?, hread, hsize, Canvas.footage, Scene.length]
  | @video src trim rate fitted start length stop hb hsrc hrate hstart hlength hstop hwritable hfitted =>
    obtain ⟨width, height, hsize, rfl⟩ := hcanvas.letterbox hfitted
    obtain rfl := hcanvas.toRate hfps hrate
    have hlasts : Lasts trim.start scene.duration start stop := ⟨hstart, length, hlength, hstop⟩
    have htrim := times_of_background hexact hb _ List.mem_cons_self
    obtain ⟨hp, hq⟩ := hlasts.denotes (htrim.isMoment hstart) (hduration.isMoment hlength)
    simp [Node.footage, footage_toPixelFormat, footage_fromZero, cut, time, Filter.paddedSize?,
      Filter.cutLength?, Numeral.read?_of_denotes hp, Numeral.read?_of_denotes hq, hsize,
      Canvas.footage, Scene.length]

/-- A layer keeps what it is laid over. -/
theorem LayerStep.footage {layer : Layer} (h : LayerStep base scene i j under s layer nodes s')
    (hknown : Explains known nodes) : known (.layer i j) = known under := by
  have hkeeps {name : String} {os : List FilterOption} {rest : List Pad}
      (hmem : ⟨under :: rest, [.call name os], .layer i j⟩ ∈ nodes)
      (hname : name ∈ Filter.transparent) : known (.layer i j) = known under :=
    (hknown _ hmem).trans (Node.footage_of_transparent hname)
  cases h with
  | text hdrawn =>
    obtain ⟨size, outline, shadow, x, y, shadowed, window, -, -, -, -, -, rfl⟩ :=
      TextLayer.filter_forms hdrawn
    exact hkeeps List.mem_cons_self (by decide)
  | image hsrc hshape hposition hwindow =>
    exact hkeeps (List.mem_cons_of_mem _ List.mem_cons_self) (by decide)
  | video hsrc hshape hposition hwindow =>
    exact hkeeps (List.mem_cons_of_mem _ List.mem_cons_self) (by decide)
  | shape hdrawn =>
    obtain ⟨x, y, opacity, width, height, window, -, -, -, -, -, rfl⟩ :=
      ShapeLayer.filter_forms hdrawn
    exact hkeeps List.mem_cons_self (by decide)

/-! ## all steps -/

/-- Layers keep what they are laid over. -/
theorem footage_layersNodes {layers : List Layer}
    (h : Gives (layersNodes base scene i j under layers) s (nodes, pad) s')
    (hknown : Explains known nodes) : known pad = known under := by
  induction layers generalizing j under s nodes with
  | nil =>
    obtain ⟨-, rfl, -⟩ := gives_layersNodes_nil.1 h
    rfl
  | cons layer rest ih =>
    obtain ⟨first, t, more, hfirst, hmore, rfl⟩ := gives_layersNodes_cons.1 h
    rw [Explains, List.forall_mem_append] at hknown
    rw [ih hmore hknown.2, hfirst.footage hknown.1]

/-- A scene leaves by a pad of the canvas and of its own length. -/
theorem footage_compile (hcanvas : output.HasCanvas c) (hfps : Spec.Field.IsRate output.fps)
    (hscene : scene.Accepted) (hexact : ∀ v ∈ scene.times, v.NothingOrExact)
    (h : Gives (compile output base scene i) s (nodes, pad) s') (hknown : Explains known nodes) :
    known pad = c.footage (some scene.length) := by
  obtain ⟨background, t, more, hbackground, hmore, rfl⟩ := gives_scene.1 h
  rw [Explains, List.forall_mem_cons] at hknown
  rw [footage_layersNodes hmore hknown.2, hknown.1,
    hbackground.footage hcanvas hfps hscene hexact]

end Scene

namespace Specification

theorem footage_compileScenes {output : Output} {c : Canvas} {base : String} {scenes : List Scene}
    {i : Int} {s s' : Inputs} {nodes : List Node} {pads : List Pad} {known : Pad → Footage}
    (hcanvas : output.HasCanvas c) (hfps : Spec.Field.IsRate output.fps)
    (hscenes : ∀ scene ∈ scenes, scene.Accepted)
    (hexact : ∀ scene ∈ scenes, ∀ v ∈ scene.times, v.NothingOrExact)
    (h : Gives (compileScenes output base i scenes) s (nodes, pads) s')
    (hknown : Explains known nodes) :
    pads.map known = scenes.map fun scene => c.footage (some scene.length) := by
  induction scenes generalizing i s nodes pads with
  | nil =>
    obtain ⟨-, rfl, -⟩ := gives_compileScenes_nil.1 h
    rfl
  | cons scene rest ih =>
    obtain ⟨first, pad, t, more, others, hfirst, hmore, rfl, rfl⟩ := gives_compileScenes_cons.1 h
    rw [Explains, List.forall_mem_append] at hknown
    rw [List.forall_mem_cons] at hscenes hexact
    rw [List.map_cons, List.map_cons, ih hscenes.2 hexact.2 hmore hknown.2,
      Scene.footage_compile hcanvas hfps hscenes.1 hexact.1 hfirst hknown.1]

end Specification

/-- A stream with a canvas, whatever its length. -/
def Footage.HasCanvas (x : Footage) (c : Canvas) : Prop :=
  x.size? = some c.size ∧ x.rate? = some c.rate

theorem Canvas.hasCanvas_footage (c : Canvas) (length? : Option ℚ) :
    (c.footage length?).HasCanvas c :=
  ⟨rfl, rfl⟩

/-- Joints that are given streams with a canvas read no others. -/
theorem Transition.hasCanvas_joints {last : Scene} {joined out : Pad} {running : Decimal} {k : Int}
    {rest : List (Scene × Pad)} {nodes : List Node} {known : Pad → Footage} {c : Canvas}
    (hjoined : (known joined).HasCanvas c) (hrest : ∀ p ∈ rest.map Prod.snd, (known p).HasCanvas c)
    (h : joints last joined running k rest = .ok (nodes, out)) (hknown : Explains known nodes) :
    ∀ n ∈ nodes, ∃ p q, n.inputs = [p, q] ∧ (known p).HasCanvas c ∧ (known q).HasCanvas c := by
  induction rest generalizing last joined running k nodes with
  | nil =>
    obtain ⟨rfl, -⟩ := joints_nil_eq_ok.1 h
    exact List.forall_mem_nil _
  | cons next rest ih =>
    obtain ⟨scene, pad⟩ := next
    obtain ⟨duration, -, offset, -, -, next, more, -, -, -, -, -, -, -, hmore, rfl⟩ :=
      joints_cons_eq_ok.1 h
    rw [Explains, List.forall_mem_cons] at hknown
    rw [List.map_cons, List.forall_mem_cons] at hrest
    have hout : (known (.transition k)).HasCanvas c := by
      rw [hknown.1]
      exact hjoined
    exact List.forall_mem_cons.2 ⟨⟨joined, pad, rfl, hjoined, hrest.1⟩,
      ih hout hrest.2 hmore hknown.2⟩

/-! ## the command line -/

namespace Command

variable {flag : String}

/-- The value of an option, where every option has one. -/
def option? (flag : String) : List String → Option String
  | name :: value :: rest => if name = flag then some value else option? flag rest
  | _ => none

/-- The value of an option of a command line. -/
def value? (flag : String) (arguments : List String) : Option String :=
  option? flag (arguments.drop start.length)

/-- The inputs of a graph are no other options. -/
theorem option?_inputs (hflag : "-i" ≠ flag) (paths rest : List String) :
    option? flag (paths.flatMap (fun path => ["-i", path]) ++ rest) = option? flag rest := by
  induction paths with
  | nil => rfl
  | cons path paths ih => exact (if_neg hflag).trans ih

/-- A command line names the canvas of its output. -/
theorem value?_renderCommand {g : Graph} {output : Output} {c : Canvas} {outfile : String}
    {arguments : List String} (hcanvas : output.HasCanvas c)
    (h : g.renderCommand output outfile = .ok arguments) :
    value? "-s" arguments = some c.size ∧ value? "-r" arguments = some c.rate := by
  obtain ⟨crf, -, h⟩ := bind_eq_ok.1 h
  obtain ⟨sampleRate, -, h⟩ := bind_eq_ok.1 h
  obtain ⟨rate, hrate, h⟩ := bind_eq_ok.1 h
  obtain ⟨size, hsize, h⟩ := bind_eq_ok.1 h
  obtain rfl := pure_eq_ok.1 h
  obtain rfl : c.rate = rate := Except.ok.inj (hcanvas.rate.symm.trans hrate)
  obtain rfl : size = c.size := hcanvas.canvas hsize
  have hstart (rest : List String) : (start ++ rest).drop start.length = rest := rfl
  simp only [value?, List.append_assoc, hstart]
  rw [option?_inputs (by decide), option?_inputs (by decide)]
  simp [option?]

end Command

/-! ## a graph -/

/-- A graph shows the scenes of a specification on one canvas. -/
structure Graph.SharesCanvas (g : Graph) (spec : Specification) (c : Canvas) : Prop where
  /-- Every scene leaves by a pad of the canvas and of its own length. -/
  scene : ∀ (k : Nat) (scene : Scene), spec.scenes[k]? = some scene →
    g.footage (scene.pad k) = c.footage (some scene.length)
  /-- What joins scenes finds the canvas on both sides. -/
  joint : ∀ n ∈ g.nodes, ∀ f ∈ n.filters, f.name = "xfade" → ∃ p q, n.inputs = [p, q] ∧
    (g.footage p).HasCanvas c ∧ (g.footage q).HasCanvas c
  /-- The command line names the canvas. -/
  command : ∀ outfile arguments, g.renderCommand spec.output outfile = .ok arguments →
    Command.value? "-s" arguments = some c.size ∧ Command.value? "-r" arguments = some c.rate

/-- A command line can be written for what is read from a document, if its numbers are of ordinary
size and its rate can be written. -/
theorem Output.Accepted.hasNumbers {output : Output} (h : output.Accepted)
    (hvalues : ∀ v ∈ output.values, v.IsOrdinary) (hrate : output.fps.IsWritable) :
    output.HasNumbers := by
  have hinteger {v : Value} {range : Spec.Field.Range} (hv : Spec.Field.WholeInRange range v)
      (hmem : v ∈ output.values) : v.IsInteger := by
    obtain ⟨t, ht⟩ := (hv.inBounds (hvalues v hmem)).plainText
    obtain ⟨i, rfl, -⟩ := hv
    exact ⟨i, rfl, (integerText_eq_ok.1 (plainText_int i ▸ ht)).1⟩
  refine ⟨hinteger h.width (by simp [values]), hinteger h.height (by simp [values]),
    hinteger h.crf (by simp [values]), hinteger h.sampleRate (by simp [values]), ?_⟩
  obtain ⟨q, hq, -⟩ | hrange := h.fps
  · exact .inr (.inr ⟨q, hq, hrate q hq⟩)
  · exact (hrange.inBounds (hvalues _ (by simp [values]))).form.imp_right .inl

namespace Specification

variable {spec : Specification} {base anchor : String} {g : Graph}

/-- What is known of the pads of a compiled graph explains its statements. -/
theorem explains_compile (h : spec.compile base anchor = .ok g) : Explains g.footage g.nodes := by
  have hwrites := writes_compile h
  refine Graph.explains_footage hwrites.nodup fun before n after hsplit p hp hwritten => ?_
  cases hinput : p.isInput with
  | true =>
    have hmem : p ∈ g.nodes.map Node.output := by
      rw [hsplit, List.map_append]
      exact List.mem_append_right _ hwritten
    exact absurd (hwrites.each p hmem).2 (by simp [hinput])
  | false =>
    obtain ⟨m, hm, rfl⟩ := earlier_compile h hsplit hp hinput
    have hnodup := hwrites.nodup
    rw [hsplit, List.map_append, List.nodup_append] at hnodup
    exact hnodup.2.2 _ (List.mem_map_of_mem hm) _ hwritten rfl

/-- Of the statements of a graph only joints leave by the pads of joints. -/
theorem mem_joints {mode : Anchor} {i k : Int} {sampleRate : Value} {scenes : List Scene}
    {tracks : List AudioTrack} {s t s' : Inputs} {sceneNodes joints soundNodes : List Node}
    {pads : List Pad} {pad : Pad} {n : Node}
    (hscenes : Gives (compileScenes spec.output base i scenes) s (sceneNodes, pads) t)
    (hsound : Gives (AudioTrack.mix mode sampleRate tracks) t (soundNodes, pad) s')
    (hn : n ∈ sceneNodes ++ joints ++ soundNodes) (hout : n.output = .transition k) :
    n ∈ joints := by
  rw [List.mem_append, List.mem_append] at hn
  obtain (hn | hn) | hn := hn
  · have hof := (writes_scenes hscenes).each _ (List.mem_map_of_mem hn)
    rw [hout] at hof
    exact hof.elim
  · exact hn
  · have hof := (AudioTrack.writes_mix hsound).each _ (List.mem_map_of_mem hn)
    rw [hout] at hof
    exact hof.elim

/-- All scenes of a graph share one canvas. -/
theorem sharesCanvas {c : Canvas} (haccepted : spec.Accepted) (hexact : spec.HasExactTimes)
    (hcanvas : spec.output.HasCanvas c) (h : spec.compile base anchor = .ok g) :
    g.SharesCanvas spec c := by
  have hknown := explains_compile h
  obtain ⟨-, s, hbuild, -⟩ := compile_eq_ok.1 h
  obtain ⟨sceneNodes, pads, t, joints, mode, soundNodes, hscenes, hchain, -, hsound, hnodes⟩ :=
    gives_build.1 hbuild
  have hscene : Explains g.footage sceneNodes := fun n hn => hknown n (by simp [hnodes, hn])
  have hjoint : Explains g.footage joints := fun n hn => hknown n (by simp [hnodes, hn])
  have hpads := footage_compileScenes hcanvas haccepted.output.fps haccepted.scene
    (fun scene hs => times_of_scene hexact hs) hscenes hscene
  have hall : ∀ p ∈ pads, (g.footage p).HasCanvas c := by
    intro p hp
    have hp := List.mem_map_of_mem (f := g.footage) hp
    rw [hpads] at hp
    obtain ⟨scene, -, hscene⟩ := List.mem_map.1 hp
    rw [← hscene]
    exact c.hasCanvas_footage _
  constructor
  · intro k scene hk
    rw [compileScenes_pads hscenes] at hpads
    have hget := congrArg (·[k]?) hpads
    simpa [hk] using hget
  · intro n hn f hf hname
    obtain ⟨k, hout⟩ := (origin_of_mem h hn).exists_joint hf hname
    obtain ⟨first, pad, rest, running, -, rfl, hjoints⟩ := Transition.chain_forms hchain
    rw [List.forall_mem_cons] at hall
    exact Transition.hasCanvas_joints hall.1 hall.2 hjoints hjoint n
      (mem_joints hscenes hsound (hnodes ▸ hn) hout)
  · intro outfile arguments hcommand
    exact Command.value?_renderCommand hcanvas hcommand

/-- Every graph of a document with exact times shows its scenes on one canvas, which is that of its
output; and there is one, with a command line, if the numbers of the document are of ordinary size
and its rate can be written. -/
theorem canvas_compile {data : Value} (hdata : ofValue data = .ok spec)
    (hexact : spec.HasExactTimes) :
    (∀ base anchor g, spec.compile base anchor = .ok g →
      ∃ c, spec.output.HasCanvas c ∧ g.SharesCanvas spec c) ∧
    ((∀ v ∈ spec.values, v.IsOrdinary) → spec.output.fps.IsWritable →
      ∀ base anchor, anchor = "start" ∨ anchor = "end" → ∃ g, spec.compile base anchor = .ok g ∧
        ∀ outfile, ∃ arguments, g.renderCommand spec.output outfile = .ok arguments) := by
  have haccepted := accepted_of_ofValue hdata
  refine ⟨fun base anchor g h => ?_, fun hvalues hrate base anchor hanchor => ?_⟩
  · obtain ⟨scene, hscene⟩ := List.exists_mem_of_ne_nil _ haccepted.scenes
    obtain ⟨i, s, s', n, hstep, -⟩ := backgroundStep_of_mem h hscene
    obtain ⟨f, hf⟩ : ∃ f, spec.output.toRate = .ok f := by
      cases hstep <;> exact ⟨_, ‹_›⟩
    obtain ⟨c, hcanvas⟩ := haccepted.output.exists_hasCanvas hf
    exact ⟨c, hcanvas, sharesCanvas haccepted hexact hcanvas h⟩
  · obtain ⟨g, hg⟩ := ((compile_outcome hanchor).2 data hdata hvalues).2 hrate
    have houtput : ∀ v ∈ spec.output.values, v.IsOrdinary := fun v hv =>
      hvalues v (by simp [values, hv])
    exact ⟨g, hg, g.exists_renderCommand (haccepted.output.hasNumbers houtput hrate)⟩

/-- A document at a rate that is no whole number, with scenes on every kind of background. -/
def mosaicFilm : Value :=
  .map [("output", .map [("width", 640), ("height", 360), ("fps", "30000/1001")]),
    ("scenes", .list [
      .map [("id", "plain"), ("duration", 2), ("layers", .list [
        .map [("type", "text"), ("content", "hi")]])],
      .map [("id", "blend"), ("duration", 3), ("background", .map [("type", "gradient"),
        ("colors", .list ["red", "blue"])])],
      .map [("id", "still"), ("duration", 2.5), ("background", .map [("type", "image"),
        ("src", "sky.png")])],
      .map [("id", "clip"), ("duration", 4), ("background", .map [("type", "video"),
          ("src", "sea.mp4"), ("trim", .map [("from", 0.5)])]),
        ("layers", .list [.map [("type", "image"), ("src", "logo.png"), ("start", 1)]])]])]

/-- What is read from it. -/
def mosaic : Specification where
  output := { width := 640, height := 360, fps := .ratio (30000 / 1001) }
  scenes := [
    { id := "plain", duration := 2, layers := [.text { content := "hi" }] },
    { id := "blend", duration := 3, background := .gradient ["red", "blue"] "vertical" },
    { id := "still", duration := 2.5, background := .image "sky.png" },
    { id := "clip", duration := 4, background := .video "sea.mp4" { start := 0.5 },
      layers := [.image { src := "logo.png", start := 1 }] }]

theorem ofValue_mosaicFilm : ofValue mosaicFilm = .ok mosaic := by
  with_unfolding_all rfl

theorem hasExactTimes_mosaic : mosaic.HasExactTimes := by
  have hhalf : NothingOrExact 0.5 := by
    refine .inr ⟨⟨_, seconds?_half, 500000, by norm_num⟩, ?_⟩
    rw [seconds_half]
    norm_num
  have hlong : NothingOrExact 2.5 := by
    refine .inr ⟨⟨_, seconds?_five_halves, 2500000, by norm_num⟩, ?_⟩
    rw [seconds_five_halves]
    norm_num
  simp [HasExactTimes, times, Scene.times, Layer.times, Layer.timing, Background.values,
    Trim.values, mosaic, hhalf, hlong]

theorem canvas_mosaicFilm : ∃ g, ofValue mosaicFilm = .ok mosaic ∧ mosaic.HasExactTimes ∧
    mosaic.compile "/media" "end" = .ok g ∧ g.SharesCanvas mosaic ⟨"640x360", "30000/1001"⟩ ∧
    g.footage (.background 2) = ⟨some "640x360", some "30000/1001", some (5 / 2)⟩ ∧
    g.footage (.layer 3 0) = ⟨some "640x360", some "30000/1001", some 4⟩ := by
  obtain ⟨hall, hexists⟩ := canvas_compile ofValue_mosaicFilm hasExactTimes_mosaic
  obtain ⟨g, hg, -⟩ :=
    hexists (by decide +kernel) (by decide +kernel) "/media" "end" (.inr rfl)
  obtain ⟨⟨size, rate⟩, hcanvas, hshares⟩ := hall _ _ g hg
  obtain rfl : size = "640x360" := by
    obtain ⟨width, height, hwidth, hheight, hsize⟩ := hcanvas.size
    obtain rfl := Value.int.inj hwidth
    obtain rfl := Value.int.inj hheight
    exact hsize.trans (by decide)
  obtain rfl : rate = "30000/1001" := by
    have htest : mosaic.output.fps.rateText.toOption.any (· = "30000/1001") = true := by
      decide +kernel
    obtain ⟨r, hr, htest⟩ := exists_of_any htest
    exact (Except.ok.inj (hcanvas.rate.symm.trans hr)).trans (of_decide_eq_true htest)
  have hstill := hshares.scene 2 _ rfl
  have hclip := hshares.scene 3 _ rfl
  refine ⟨g, ofValue_mosaicFilm, hasExactTimes_mosaic, hg, hshares, hstill.trans ?_, hclip⟩
  rw [Scene.length, seconds_five_halves]
  rfl

end Specification

end Storyboard
