import Storyboard.Proofs.Compile.Failure
import Storyboard.Proofs.Compile.Step

/-!
# Storyboard.Proofs.Compile.Carried

The fields of a specification that no graph depends on.  They are carried along for others: for
people, for the player or for the engine that renders the graph.  The *essence* of a specification
is what is left when each of these fields is set to one fixed value, so two specifications have the
same essence if they differ in carried fields alone.  Whatever has the same essence compiles to the
same graph, or fails for the same reason, in which only the name of a scene may differ.

* `Build.Alike.bind` — steps that are alike, one after another;
* `Transition.chain_essences` — the joints, which do not depend on how the last scene ends;
* `Specification.compile_of_essence_eq` — a whole compilation.
-/

namespace Storyboard

open Build

/-! ## what a graph is made from -/

/-- A fault without the name of the scene in which it was found. -/
def Fault.unnamed : Fault → Fault
  | .inconsistent (.gradientEmpty _) => .inconsistent (.gradientEmpty "")
  | .inconsistent (.backgroundUnsupported _ kind) => .inconsistent (.backgroundUnsupported "" kind)
  | .inconsistent (.layerUnsupported _ kind) => .inconsistent (.layerUnsupported "" kind)
  | f => f

/-- The container, the codec and its settings are for the engine. -/
def Output.essence (o : Output) : Output :=
  { o with format := "", codec := "", crf := .null, preset := "" }

/-- Of a gradient the first color is drawn, and a clip lasts as long as its scene. -/
def Background.essence : Background → Background
  | .video src trim => .video src { trim with stop := .null }
  | .gradient (first :: _) _ => .gradient [first] ""
  | b => b

def TextStyle.essence (s : TextStyle) : TextStyle :=
  { s with bold := false, italic := false, lineSpacing := .null, align := "" }

def TextLayer.essence (l : TextLayer) : TextLayer :=
  { l with style := l.style.essence, animation := {} }

def ImageLayer.essence (l : ImageLayer) : ImageLayer := { l with animation := {} }

def VideoLayer.essence (l : VideoLayer) : VideoLayer := { l with mute := false }

/-- Every shape is drawn as a rectangle. -/
def ShapeLayer.essence (l : ShapeLayer) : ShapeLayer :=
  { l with shape := "", borderRadius := .null }

def Layer.essence : Layer → Layer
  | .text l => .text l.essence
  | .image l => .image l.essence
  | .video l => .video l.essence
  | .shape l => .shape l.essence
  | l => l

/-- A scene without its name.  How it gives way counts only if a scene comes after it. -/
def Scene.essence (isLast : Bool) (s : Scene) : Scene :=
  { s with
    id := "", background := s.background.essence, layers := s.layers.map Layer.essence,
    transition := if isLast then {} else s.transition }

/-- Scenes one after another. -/
def Scene.essences : List Scene → List Scene
  | [] => []
  | s :: rest => s.essence rest.isEmpty :: essences rest

def AudioTrack.essence (t : AudioTrack) : AudioTrack :=
  { t with category := "", loop := false, id := none }

/-- A specification without all that is carried. -/
def Specification.essence (s : Specification) : Specification where
  scenes := Scene.essences s.scenes
  output := s.output.essence
  audio := { tracks := s.audio.tracks.map AudioTrack.essence }

/-! ## steps that are alike -/

namespace Build

variable {α β : Type} {x y : Build α}

/-- What a step comes to from some inputs, apart from the name of a scene in a fault. -/
def outcome (x : Build α) (s : Inputs) : Except Fault α × Inputs :=
  ((x.run.run s).1.mapError Fault.unnamed, (x.run.run s).2)

/-- Two steps come to the same from all inputs. -/
def Alike (x y : Build α) : Prop := ∀ s, x.outcome s = y.outcome s

theorem Alike.refl (x : Build α) : Alike x x := fun _ => rfl

/-- Faults that differ in the name of a scene alone are alike. -/
theorem Alike.throw {e e' : Fault} (h : e.unnamed = e'.unnamed) :
    Alike (throw e : Build α) (throw e') := fun s => by
  show (Except.error e.unnamed, s) = (Except.error e'.unnamed, s)
  rw [h]

theorem outcome_bind (x : Build α) (f : α → Build β) (s : Inputs) :
    (x >>= f).outcome s = match x.outcome s with
      | (.ok a, t) => (f a).outcome t
      | (.error e, t) => (.error e, t) := by
  simp only [outcome, ExceptT.run_bind, StateT.run_bind]
  rcases x.run.run s with ⟨_ | a, t⟩ <;> rfl

/-- Alike steps after alike steps. -/
theorem Alike.bind {f g : α → Build β} (hx : Alike x y) (hf : ∀ a, Alike (f a) (g a)) :
    Alike (x >>= f) (y >>= g) := by
  intro s
  rw [outcome_bind, outcome_bind, hx s]
  rcases y.outcome s with ⟨_ | a, t⟩
  · rfl
  · exact hf a t

end Build

/-! ## the picture -/

namespace Scene

variable (output : Output) (base : String) (scene : Scene) (isLast : Bool) (i : Int)

theorem alike_backgroundNode :
    Alike (backgroundNode output scene i)
      (backgroundNode output.essence (scene.essence isLast) i) := by
  refine .bind (.refl _) fun rate => ?_
  rcases hb : scene.background with _ | _ | _ | ⟨_ | _, _⟩ | _ <;>
    simp only [essence, hb]
  case gradient.nil => exact .throw rfl
  case other => exact .throw rfl
  all_goals exact .refl _

theorem alike_layerNodes (j : Int) (layer : Layer) (under : Pad) :
    Alike (layerNodes base scene i j layer under)
      (layerNodes base (scene.essence isLast) i j layer.essence under) := by
  cases layer with
  | other kind form => exact .throw rfl
  | _ => exact .refl _

theorem alike_layersNodes (j : Int) (under : Pad) (layers : List Layer) :
    Alike (layersNodes base scene i j under layers)
      (layersNodes base (scene.essence isLast) i j under (layers.map Layer.essence)) := by
  induction layers generalizing j under with
  | nil => exact .refl _
  | cons layer rest ih =>
    exact (alike_layerNodes base scene isLast i j layer under).bind fun _ =>
      (ih (j + 1) (.layer i j)).bind fun _ => .refl _

theorem alike_compile : Alike (scene.compile output base i)
    ((scene.essence isLast).compile output.essence base i) :=
  (alike_backgroundNode output scene isLast i).bind fun _ =>
    (alike_layersNodes base scene isLast i 0 _ scene.layers).bind fun _ => .refl _

theorem length_essences (scenes : List Scene) : (essences scenes).length = scenes.length := by
  induction scenes with
  | nil => rfl
  | cons s rest ih => simp [essences, ih]

end Scene

theorem Specification.alike_compileScenes (output : Output) (base : String) (i : Int)
    (scenes : List Scene) : Alike (compileScenes output base i scenes)
      (compileScenes output.essence base i (Scene.essences scenes)) := by
  induction scenes generalizing i with
  | nil => exact .refl _
  | cons s rest ih =>
    exact (Scene.alike_compile output base s rest.isEmpty i).bind fun _ =>
      (ih (i + 1)).bind fun _ => .refl _

namespace Transition

/-- The last of the scenes that are joined has no joint of its own. -/
theorem joints_essences (last : Scene) (scenes : List Scene) (pads : List Pad) (joined : Pad)
    (running : Decimal) (k : Int) :
    joints (last.essence scenes.isEmpty) joined running k ((Scene.essences scenes).zip pads)
      = joints last joined running k (scenes.zip pads) := by
  induction scenes generalizing last pads joined running k with
  | nil => simp [Scene.essences, joints]
  | cons scene rest ih =>
    cases pads with
    | nil => simp [joints]
    | cons pad pads =>
      simp only [Scene.essences, List.zip_cons_cons, joints, ih]
      rfl

theorem chain_essences (scenes : List Scene) (pads : List Pad) :
    chain (Scene.essences scenes) pads = chain scenes pads := by
  unfold chain
  rw [Scene.length_essences]
  split
  · rfl
  · rcases scenes with _ | ⟨scene, _ | ⟨next, rest⟩⟩
    · rfl
    · cases pads <;> rfl
    · rcases pads with _ | ⟨pad, _ | ⟨pad', pads⟩⟩
      · rfl
      · rfl
      · exact congrArg _ (funext fun running => joints_essences scene (next :: rest) _ _ _ _)

end Transition

/-! ## the sound -/

namespace AudioTrack

theorem compileAll_essence (anchor : Anchor) (t : Int) (tracks : List AudioTrack) :
    compileAll anchor t (tracks.map essence) = compileAll anchor t tracks := by
  induction tracks generalizing t with
  | nil => rfl
  | cons track rest ih =>
    simp only [List.map_cons, compileAll, ih]
    rfl

theorem mix_essence (anchor : Anchor) (sampleRate : Value) (tracks : List AudioTrack) :
    mix anchor sampleRate (tracks.map essence) = mix anchor sampleRate tracks := by
  rw [mix, mix, compileAll_essence]

end AudioTrack

/-! ## whole specifications -/

namespace Specification

variable {spec spec' : Specification} {base anchor : String}

theorem alike_build (spec : Specification) (base anchor : String) :
    Alike (spec.build base anchor) (spec.essence.build base anchor) := by
  refine (alike_compileScenes spec.output base 0 spec.scenes).bind fun made => ?_
  simp only [essence, Transition.chain_essences, AudioTrack.mix_essence]
  exact .refl _

/-- What a compilation comes to is what its steps come to from no inputs. -/
theorem mapError_compile : (spec.compile base anchor).mapError Fault.unnamed =
    if spec.scenes.isEmpty then .error (.inconsistent .noScene) else
      match (spec.build base anchor).outcome ⟨base, []⟩ with
      | (.ok (nodes, videoPad, audioPad), inputs) => .ok ⟨inputs.paths, nodes, videoPad, audioPad⟩
      | (.error e, _) => .error e := by
  unfold compile outcome
  cases spec.scenes.isEmpty with
  | true => rfl
  | false =>
    rcases (spec.build base anchor).run.run ⟨base, []⟩ with ⟨_ | ⟨nodes, video, audio⟩, s⟩ <;> rfl

theorem mapError_compile_essence : (spec.compile base anchor).mapError Fault.unnamed =
    (spec.essence.compile base anchor).mapError Fault.unnamed := by
  have hempty : spec.essence.scenes.isEmpty = spec.scenes.isEmpty := by
    cases h : spec.scenes <;> simp [essence, h, Scene.essences]
  rw [mapError_compile, mapError_compile, hempty, alike_build spec base anchor]

/-- Two specifications that differ in carried fields alone have the same graph, or fail for the same
reason.  The fault of one differs from that of the other at most in the name of a scene. -/
theorem compile_of_essence_eq (h : spec.essence = spec'.essence) :
    (∃ g, spec.compile base anchor = .ok g ∧ spec'.compile base anchor = .ok g) ∨
    ∃ e e', spec.compile base anchor = .error e ∧ spec'.compile base anchor = .error e' ∧
      e.unnamed = e'.unnamed := by
  have hsame : (spec.compile base anchor).mapError Fault.unnamed
      = (spec'.compile base anchor).mapError Fault.unnamed := by
    rw [mapError_compile_essence, h, ← mapError_compile_essence]
  cases hspec : spec.compile base anchor with
  | ok g =>
    cases hspec' : spec'.compile base anchor with
    | ok g' =>
      rw [hspec, hspec'] at hsame
      exact .inl ⟨g, rfl, congrArg Except.ok (Except.ok.inj hsame).symm⟩
    | error e' =>
      rw [hspec, hspec'] at hsame
      cases hsame
  | error e =>
    cases hspec' : spec'.compile base anchor with
    | ok g' =>
      rw [hspec, hspec'] at hsame
      cases hsame
    | error e' =>
      rw [hspec, hspec'] at hsame
      exact .inr ⟨e, e', rfl, rfl, Except.error.inj hsame⟩

/-- Two scenes with every kind of layer, and a track. -/
def bareFilm : Specification where
  scenes := [
    { id := "sky", duration := 3, background := .gradient ["#102030"] "vertical"
      layers := [.text { content := "hi" }, .image { src := "logo.png" },
        .video { src := "clip.mp4" }, .shape {}]
      transition := { type := "wipe-left" } },
    { id := "sea", duration := 4, background := .video "sea.mp4" { start := 1 } }]
  audio := { tracks := [{ src := "wind.mp3", fadeOut := 1 }] }

/-- The same film with another value in every field that is carried. -/
def ladenFilm : Specification where
  scenes := [
    { id := "first", duration := 3, background := .gradient ["#102030", "red", "#FFFFFF"] "diagonal"
      layers := [
        .text {
          content := "hi"
          style := { bold := true, italic := true, lineSpacing := 2, align := "left" }
          animation := { enter := "fadeIn", exitDuration := 3 } },
        .image { src := "logo.png", animation := { exit := "zoomOut" } },
        .video { src := "clip.mp4", mute := false },
        .shape { shape := "circle", borderRadius := 8 }]
      transition := { type := "wipe-left" } },
    { id := "last", duration := 4, background := .video "sea.mp4" { start := 1, stop := 2 }
      transition := { type := "fade-black", duration := 9 } }]
  output := { format := "webm", codec := "libvpx-vp9", crf := 40, preset := "slow" }
  audio := {
    tracks := [{ src := "wind.mp3", fadeOut := 1, category := "sfx", loop := true, id := "wind" }]
    master := { volume := 2, normalize := true } }
  subtitles := [{ start := 0, stop := 1, text := "hi" }]
  thumbnail := { enabled := false }
  version := "2.0"
  title := "Laden"

theorem inBounds_bareFilm : bareFilm.InBounds where
  scenes := by
    have hzero : Value.InBounds 0 := by decide +kernel
    have hopacity : Value.InBounds 1 := by decide +kernel
    have hcenter : ({} : Position).InBounds := ⟨.inl ⟨_, rfl⟩, .inl ⟨_, rfl⟩⟩
    have hauto : ({} : Size).InBounds := ⟨.inl rfl, .inl rfl⟩
    have hwindow : Window.InBounds 0 .null := ⟨hzero, .inl rfl⟩
    simp only [bareFilm, List.forall_mem_cons]
    refine ⟨⟨by decide +kernel, trivial, ?_, by decide +kernel⟩,
      ⟨by decide +kernel, ⟨hopacity, .inl rfl⟩, by simp, by decide +kernel⟩, by simp⟩
    simp only [List.forall_mem_cons]
    refine ⟨?text, ?image, ?video, ?shape, by simp⟩
    case text => exact ⟨hcenter, hwindow, by decide +kernel, by decide +kernel, hzero⟩
    case image => exact ⟨hcenter, hauto, hopacity, hwindow⟩
    case video => exact ⟨⟨hzero, .inl rfl⟩, hcenter, hauto, hopacity, hwindow⟩
    case shape => exact ⟨hauto, hcenter, by decide +kernel, hwindow⟩
  output := ⟨by decide +kernel, by decide +kernel, .inr (by decide +kernel), by decide +kernel⟩
  tracks := by
    simp only [bareFilm, List.forall_mem_singleton]
    exact ⟨⟨by decide +kernel, .inl rfl⟩, by decide +kernel, by decide +kernel, by decide +kernel,
      ⟨by decide +kernel, .inl rfl⟩⟩

theorem not_isFaulty_bareFilm : ¬ bareFilm.IsFaulty := by
  simp [bareFilm, IsFaulty, Scene.IsFaulty, Background.IsFaulty, Layer.IsFaulty]

theorem compile_of_essence_eq_ladenFilm : bareFilm.essence = ladenFilm.essence ∧
    ∃ g, bareFilm.compile "/media" "end" = .ok g ∧ ladenFilm.compile "/media" "end" = .ok g := by
  -- Each field is put in place first; by unfolding alone, what is carried would be compared too.
  have hessence : bareFilm.essence = ladenFilm.essence := by
    simp only [bareFilm, ladenFilm, essence, Scene.essences, Scene.essence, Background.essence,
      Output.essence, AudioTrack.essence, Layer.essence, TextLayer.essence, TextStyle.essence,
      ImageLayer.essence, VideoLayer.essence, ShapeLayer.essence, List.map_cons, List.map_nil,
      List.isEmpty, if_true]
  refine ⟨hessence, (compile_of_essence_eq hessence).resolve_right ?_⟩
  rintro ⟨e, e', he, -⟩
  obtain ⟨g, hg⟩ : ∃ g, bareFilm.compile "/media" "end" = .ok g :=
    exists_compile inBounds_bareFilm nofun ⟨_, rfl⟩ not_isFaulty_bareFilm
  rw [he] at hg
  cases hg

end Specification

end Storyboard
