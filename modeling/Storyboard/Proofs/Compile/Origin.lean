import Storyboard.Proofs.Compile.Wiring

/-!
# Storyboard.Proofs.Compile.Origin

Where the statements of a graph come from.  Every statement is made by one step for one
element of the specification, so what holds of the statements of every step holds of all
statements of a graph.

* `Specification.origin_of_mem` — a statement of a graph has an origin;
* `Specification.backgroundStep_of_mem`, `Specification.layerStep_of_mem`,
  `Specification.trackStep_of_mem` — an element has its statements in the graph.
-/

namespace Storyboard

open Build

/-- The step that a statement comes from, and the element that it is for. -/
inductive Specification.Origin (spec : Specification) (base : String) : Node → Prop
  | background {scene : Scene} {i : Int} {s s' : Inputs} {n : Node} (hscene : scene ∈ spec.scenes)
      (hstep : Scene.BackgroundStep spec.output scene i s n s') : Origin spec base n
  | layer {scene : Scene} {layer : Layer} {i j : Int} {under : Pad} {s s' : Inputs}
      {nodes : List Node} {n : Node} (hscene : scene ∈ spec.scenes) (hlayer : layer ∈ scene.layers)
      (hstep : Scene.LayerStep base scene i j under s layer nodes s') (hn : n ∈ nodes) :
      Origin spec base n
  | joint {last : Scene} {joined pad : Pad} {duration : Decimal} (offset : Decimal) (k : Int)
      (hlast : last ∈ spec.scenes) (hduration : last.transition.duration.toDecimal = .ok duration) :
      Origin spec base
        ⟨[joined, pad], [Transition.filter last.transition.type duration offset], .transition k⟩
  | track {track : AudioTrack} {anchor : Anchor} {t : Int} {s s' : Inputs} {n : Node}
      (htrack : track ∈ spec.audio.tracks)
      (hstep : AudioTrack.TrackStep anchor track t s n s') : Origin spec base n
  | silence {n : Node} (hsilence : AudioTrack.silence spec.output.sampleRate = .ok n) :
      Origin spec base n
  | mix (pads : List Pad) : Origin spec base (AudioTrack.mixNode pads)

namespace Scene

variable {base : String} {scene : Scene} {i j : Int} {under pad : Pad} {s s' : Inputs}
  {n : Node} {nodes : List Node}

/-- A statement of layers comes from the step of one of them. -/
theorem exists_layerStep {layers : List Layer}
    (h : Gives (layersNodes base scene i j under layers) s (nodes, pad) s') (hn : n ∈ nodes) :
    ∃ layer ∈ layers, ∃ j under s s' made, LayerStep base scene i j under s layer made s' ∧
      n ∈ made := by
  induction layers generalizing j under s nodes with
  | nil =>
    obtain ⟨rfl, -, -⟩ := gives_layersNodes_nil.1 h
    exact absurd hn List.not_mem_nil
  | cons layer rest ih =>
    obtain ⟨first, t, more, hfirst, hmore, rfl⟩ := gives_layersNodes_cons.1 h
    cases List.mem_append.1 hn with
    | inl hn => exact ⟨layer, List.mem_cons_self, j, under, s, t, first, hfirst, hn⟩
    | inr hn =>
        obtain ⟨layer', hlayer, hstep⟩ := ih hmore hn
        exact ⟨layer', List.mem_cons_of_mem _ hlayer, hstep⟩

/-- The layer with a number has its step, and the statements of that are among those of all
layers. -/
theorem layerStep_of_getElem? {layers : List Layer} {layer : Layer} {k : Nat}
    (h : Gives (layersNodes base scene i j under layers) s (nodes, pad) s')
    (hlayer : layers[k]? = some layer) :
    ∃ under s s' made, LayerStep base scene i (j + k) under s layer made s' ∧
      ∀ n ∈ made, n ∈ nodes := by
  induction layers generalizing j under s nodes k with
  | nil => simp at hlayer
  | cons first rest ih =>
    obtain ⟨made, t, more, hfirst, hmore, rfl⟩ := gives_layersNodes_cons.1 h
    cases k with
    | zero =>
      obtain rfl : first = layer := Option.some.inj hlayer
      refine ⟨under, s, t, made, ?_, fun n hn => List.mem_append_left _ hn⟩
      rwa [Int.natCast_zero, Int.add_zero]
    | succ k =>
      obtain ⟨under', u, u', made', hstep, hmade⟩ := ih hmore hlayer
      refine ⟨under', u, u', made', ?_, fun n hn => List.mem_append_right _ (hmade n hn)⟩
      rwa [Int.natCast_succ, Int.add_comm k 1, ← Int.add_assoc]

/-- Every layer has its step, and the statements of that are among those of all layers. -/
theorem layerStep_of_mem {layers : List Layer} {layer : Layer}
    (h : Gives (layersNodes base scene i j under layers) s (nodes, pad) s')
    (hlayer : layer ∈ layers) :
    ∃ j under s s' made, LayerStep base scene i j under s layer made s' ∧
      ∀ n ∈ made, n ∈ nodes := by
  obtain ⟨k, hk⟩ := List.mem_iff_getElem?.1 hlayer
  obtain ⟨under', hstep⟩ := layerStep_of_getElem? h hk
  exact ⟨j + k, under', hstep⟩

end Scene

namespace Specification

variable {spec : Specification} {base anchor : String} {s s' : Inputs} {n : Node}
  {nodes : List Node}

theorem origin_of_mem_scene {scene : Scene} {i : Int} {pad : Pad} (hscene : scene ∈ spec.scenes)
    (h : Gives (scene.compile spec.output base i) s (nodes, pad) s') (hn : n ∈ nodes) :
    Origin spec base n := by
  obtain ⟨background, t, more, hbackground, hmore, rfl⟩ := Scene.gives_scene.1 h
  rcases List.mem_cons.1 hn with rfl | hn
  · exact .background hscene hbackground
  · obtain ⟨layer, hlayer, j, under, u, u', made, hstep, hmade⟩ :=
      Scene.exists_layerStep hmore hn
    exact .layer hscene hlayer hstep hmade

theorem origin_of_mem_scenes {scenes : List Scene} {i : Int} {pads : List Pad}
    (hscenes : ∀ scene ∈ scenes, scene ∈ spec.scenes)
    (h : Gives (compileScenes spec.output base i scenes) s (nodes, pads) s') (hn : n ∈ nodes) :
    Origin spec base n := by
  induction scenes generalizing i s nodes pads with
  | nil =>
    obtain ⟨rfl, -, -⟩ := gives_compileScenes_nil.1 h
    exact absurd hn List.not_mem_nil
  | cons scene rest ih =>
    obtain ⟨first, pad, t, more, others, hfirst, hmore, rfl, -⟩ := gives_compileScenes_cons.1 h
    rw [List.forall_mem_cons] at hscenes
    cases List.mem_append.1 hn with
    | inl hn => exact origin_of_mem_scene hscenes.1 hfirst hn
    | inr hn => exact ih hscenes.2 hmore hn

theorem origin_of_mem_joints {last : Scene} {joined out : Pad} {running : Decimal} {k : Int}
    {rest : List (Scene × Pad)} (hlast : last ∈ spec.scenes)
    (hrest : ∀ scene ∈ rest.map Prod.fst, scene ∈ spec.scenes)
    (h : Transition.joints last joined running k rest = .ok (nodes, out)) (hn : n ∈ nodes) :
    Origin spec base n := by
  induction rest generalizing last joined running k nodes with
  | nil =>
    obtain ⟨rfl, -⟩ := Transition.joints_nil_eq_ok.1 h
    exact absurd hn List.not_mem_nil
  | cons next rest ih =>
    obtain ⟨scene, pad⟩ := next
    obtain ⟨duration, -, offset, -, -, next, more, hduration, -, -, -, -, -, -, hmore, rfl⟩ :=
      Transition.joints_cons_eq_ok.1 h
    rw [List.map_cons, List.forall_mem_cons] at hrest
    rcases List.mem_cons.1 hn with rfl | hn
    · exact .joint offset k hlast hduration
    · exact ih hrest.1 hrest.2 hmore hn

theorem origin_of_mem_chain {out : Pad} {pads : List Pad}
    (h : Transition.chain spec.scenes pads = .ok (nodes, out)) (hn : n ∈ nodes) :
    Origin spec base n := by
  obtain ⟨scene, pad, rest, running, hzip, -, hjoints⟩ := Transition.chain_forms h
  have hmem : ∀ p ∈ (scene, pad) :: rest, p.1 ∈ spec.scenes := by
    intro p hp
    rw [← hzip] at hp
    exact (List.of_mem_zip hp).1
  rw [List.forall_mem_cons] at hmem
  exact origin_of_mem_joints hmem.1 (by simpa using hmem.2) hjoints hn

theorem origin_of_mem_tracks {mode : Anchor} {tracks : List AudioTrack} {t : Int}
    (htracks : ∀ track ∈ tracks, track ∈ spec.audio.tracks)
    (h : Gives (AudioTrack.compileAll mode t tracks) s nodes s') (hn : n ∈ nodes) :
    Origin spec base n := by
  induction tracks generalizing t s nodes with
  | nil =>
    obtain ⟨rfl, -⟩ := AudioTrack.gives_compileAll_nil.1 h
    exact absurd hn List.not_mem_nil
  | cons track rest ih =>
    obtain ⟨first, u, more, hfirst, hmore, rfl⟩ := AudioTrack.gives_compileAll_cons.1 h
    rw [List.forall_mem_cons] at htracks
    rcases List.mem_cons.1 hn with rfl | hn
    · exact .track htracks.1 hfirst
    · exact ih htracks.2 hmore hn

theorem origin_of_mem_mix {mode : Anchor} {pad : Pad}
    (h : Gives (AudioTrack.mix mode spec.output.sampleRate spec.audio.tracks) s (nodes, pad) s')
    (hn : n ∈ nodes) : Origin spec base n := by
  obtain ⟨heard, hheard, hmix⟩ := AudioTrack.gives_mix.1 h
  have htrack (hmem : n ∈ heard) : Origin spec base n :=
    origin_of_mem_tracks (fun _ h => h) hheard hmem
  cases hmix with
  | silence hsilence =>
    obtain rfl := List.mem_singleton.1 hn
    exact .silence hsilence
  | single node => exact htrack hn
  | mix a b rest =>
    cases List.mem_append.1 hn with
    | inl hn => exact htrack hn
    | inr hn =>
        obtain rfl := List.mem_singleton.1 hn
        exact .mix _

theorem gives_of_mem_scenes {scenes : List Scene} {scene : Scene} {output : Output} {i : Int}
    {pads : List Pad} (h : Gives (compileScenes output base i scenes) s (nodes, pads) s')
    (hscene : scene ∈ scenes) :
    ∃ i s s' made pad, Gives (scene.compile output base i) s (made, pad) s' ∧
      ∀ n ∈ made, n ∈ nodes := by
  induction scenes generalizing i s nodes pads with
  | nil => exact absurd hscene List.not_mem_nil
  | cons first rest ih =>
    obtain ⟨made, pad, t, more, others, hfirst, hmore, rfl, -⟩ := gives_compileScenes_cons.1 h
    rcases List.mem_cons.1 hscene with rfl | hscene
    · exact ⟨i, s, t, made, pad, hfirst, fun n hn => List.mem_append_left _ hn⟩
    · obtain ⟨i', u, u', made', pad', hgives, hmade⟩ := ih hmore hscene
      exact ⟨i', u, u', made', pad', hgives, fun n hn => List.mem_append_right _ (hmade n hn)⟩

/-- The statements of every scene are in the graph. -/
theorem gives_of_mem {g : Graph} {scene : Scene} (h : spec.compile base anchor = .ok g)
    (hscene : scene ∈ spec.scenes) :
    ∃ i s s' made pad, Gives (scene.compile spec.output base i) s (made, pad) s' ∧
      ∀ n ∈ made, n ∈ g.nodes := by
  obtain ⟨-, s, hbuild, -⟩ := compile_eq_ok.1 h
  obtain ⟨sceneNodes, pads, t, joints, mode, soundNodes, hscenes, -, -, -, hnodes⟩ :=
    gives_build.1 hbuild
  obtain ⟨i, u, u', made, pad, hgives, hmade⟩ := gives_of_mem_scenes hscenes hscene
  refine ⟨i, u, u', made, pad, hgives, ?_⟩
  intro n hn
  rw [hnodes, List.append_assoc]
  exact List.mem_append_left _ (hmade n hn)

/-- Every scene has the step of its background, and the statement of that is in the graph. -/
theorem backgroundStep_of_mem {g : Graph} {scene : Scene} (h : spec.compile base anchor = .ok g)
    (hscene : scene ∈ spec.scenes) :
    ∃ i s s' n, Scene.BackgroundStep spec.output scene i s n s' ∧ n ∈ g.nodes := by
  obtain ⟨i, u, u', made, pad, hgives, hmade⟩ := gives_of_mem h hscene
  obtain ⟨background, v, laid, hstep, -, rfl⟩ := Scene.gives_scene.1 hgives
  exact ⟨i, u, v, background, hstep, hmade _ List.mem_cons_self⟩

/-- Every layer of a scene has its step, and the statements of that are in the graph. -/
theorem layerStep_of_mem {g : Graph} {scene : Scene} {layer : Layer}
    (h : spec.compile base anchor = .ok g) (hscene : scene ∈ spec.scenes)
    (hlayer : layer ∈ scene.layers) :
    ∃ i j under s s' made, Scene.LayerStep base scene i j under s layer made s' ∧
      ∀ n ∈ made, n ∈ g.nodes := by
  obtain ⟨i, u, u', made, pad, hgives, hmade⟩ := gives_of_mem h hscene
  obtain ⟨background, v, laid, -, hlaid, rfl⟩ := Scene.gives_scene.1 hgives
  obtain ⟨j, under, w, w', nodes, hstep, hnodes⟩ := Scene.layerStep_of_mem hlaid hlayer
  exact ⟨i, j, under, w, w', nodes, hstep, fun n hn =>
    hmade n (List.mem_cons_of_mem _ (hnodes n hn))⟩

theorem trackStep_of_mem_tracks {mode : Anchor} {tracks : List AudioTrack} {track : AudioTrack}
    {t : Int} (h : Gives (AudioTrack.compileAll mode t tracks) s nodes s')
    (htrack : track ∈ tracks) :
    ∃ t s s' n, AudioTrack.TrackStep mode track t s n s' ∧ n ∈ nodes := by
  induction tracks generalizing t s nodes with
  | nil => exact absurd htrack List.not_mem_nil
  | cons first rest ih =>
    obtain ⟨node, u, more, hfirst, hmore, rfl⟩ := AudioTrack.gives_compileAll_cons.1 h
    rcases List.mem_cons.1 htrack with rfl | htrack
    · exact ⟨t, s, u, node, hfirst, List.mem_cons_self⟩
    · obtain ⟨t', v, v', n, hstep, hn⟩ := ih hmore htrack
      exact ⟨t', v, v', n, hstep, List.mem_cons_of_mem _ hn⟩

theorem mem_of_mixdown {sampleRate : Value} {heard : List Node} {pad : Pad}
    (h : AudioTrack.Mixdown sampleRate heard nodes pad) (hn : n ∈ heard) : n ∈ nodes := by
  cases h with
  | silence _ => exact absurd hn List.not_mem_nil
  | single node => exact hn
  | mix a b rest => exact List.mem_append_left _ hn

/-- Every track has its step, and the statement of that is in the graph. -/
theorem trackStep_of_mem {g : Graph} {track : AudioTrack} (h : spec.compile base anchor = .ok g)
    (htrack : track ∈ spec.audio.tracks) :
    ∃ mode t s s' n, AudioTrack.TrackStep mode track t s n s' ∧ n ∈ g.nodes := by
  obtain ⟨-, s, hbuild, -⟩ := compile_eq_ok.1 h
  obtain ⟨sceneNodes, pads, t, joints, mode, soundNodes, -, -, -, hsound, hnodes⟩ :=
    gives_build.1 hbuild
  obtain ⟨heard, hheard, hmix⟩ := AudioTrack.gives_mix.1 hsound
  obtain ⟨k, u, u', n, hstep, hn⟩ := trackStep_of_mem_tracks hheard htrack
  refine ⟨mode, k, u, u', n, hstep, ?_⟩
  rw [hnodes]
  exact List.mem_append_right _ (mem_of_mixdown hmix hn)

/-- Every statement of a graph has an origin. -/
theorem origin_of_mem {g : Graph} (h : spec.compile base anchor = .ok g) (hn : n ∈ g.nodes) :
    Origin spec base n := by
  obtain ⟨-, s, hbuild, -⟩ := compile_eq_ok.1 h
  obtain ⟨sceneNodes, pads, t, joints, mode, soundNodes, hscenes, hchain, -, hsound, hnodes⟩ :=
    gives_build.1 hbuild
  rw [hnodes, List.mem_append, List.mem_append] at hn
  rcases hn with (hn | hn) | hn
  · exact origin_of_mem_scenes (fun _ h => h) hscenes hn
  · exact origin_of_mem_chain hchain hn
  · exact origin_of_mem_mix hsound hn

end Specification

end Storyboard
