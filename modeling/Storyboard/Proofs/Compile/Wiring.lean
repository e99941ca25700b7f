import Storyboard.Proofs.Compile.Filters
import Storyboard.Proofs.Compile.Step
import Storyboard.Proofs.Graph.Wiring

/-!
# Storyboard.Proofs.Compile.Wiring

The wiring of a compiled graph.  A scene needs no open pad and leaves one, the joints take
the pads of all scenes and leave one, and the sound needs none and leaves one; so the whole
graph needs none and leaves the pads of picture and sound open.  Each producer writes pads
of a family of its own, told apart by the numbers in them, so no pad is written twice.

* `Specification.wired_build` — the whole graph is wired;
* `Specification.writes_build` — its statements write different pads.
-/

namespace Storyboard

open Build

/-! ## the families of pads -/

namespace Pad

/-- The pads that the layers of scene `i` write, from layer `j` on. -/
def OfLayers (i j : Int) : Pad → Prop
  | .layer i' j' | .media i' j' => i' = i ∧ j ≤ j'
  | _ => False

/-- The pads that scene `i` writes. -/
def OfScene (i : Int) : Pad → Prop
  | .background i' | .layer i' _ | .media i' _ => i' = i
  | _ => False

/-- The pads that the scenes write, from scene `i` on. -/
def OfScenes (i : Int) : Pad → Prop
  | .background i' | .layer i' _ | .media i' _ => i ≤ i'
  | _ => False

/-- The pads that the joints write, from joint `k` on. -/
def OfJoints (k : Int) : Pad → Prop
  | .transition k' => k ≤ k'
  | _ => False

/-- The pads that the tracks write, from track `t` on. -/
def OfTracks (t : Int) : Pad → Prop
  | .track t' => t ≤ t'
  | _ => False

/-- The pads that are written for the sound. -/
def OfSound : Pad → Prop
  | .track _ | .mix | .silence => True
  | _ => False

/-- What is written for the picture is not written for the sound. -/
theorem not_ofSound {p : Pad} (h : p.OfScenes 0 ∨ p.OfJoints 1) : ¬ p.OfSound := by
  cases p <;> simp_all [OfScenes, OfJoints, OfSound]

end Pad

/-! ## a scene -/

namespace Scene

variable {output : Output} {base : String} {scene : Scene} {i j : Int} {s s' : Inputs}
  {n : Node} {nodes : List Node} {under pad : Pad}

/-- A background writes its pad and closes none. -/
theorem BackgroundStep.ends (h : BackgroundStep output scene i s n s') :
    n.output = .background i ∧ n.closed = [] := by
  cases h <;> exact ⟨rfl, rfl⟩

theorem LayerStep.wired {layer : Layer} (hunder : under.IsWritten)
    (h : LayerStep base scene i j under s layer nodes s') : Wired [under] nodes [.layer i j] := by
  have hone (fs : List Filter) : Node.closed ⟨[under], fs, .layer i j⟩ = [under] :=
    Node.closed_eq_inputs (by simpa using hunder.2)
  have htwo (fs : List Filter) :
      Node.closed ⟨[under, .media i j], fs, .layer i j⟩ = [under, .media i j] :=
    Node.closed_eq_inputs (by simpa using ⟨hunder.2, rfl⟩)
  -- the media statement opens its pad beside `under`, and the one after it closes both
  have hover (k : Int) (shape fs : List Filter) :
      Wired [under] [⟨[.input k .video], shape, .media i j⟩,
        ⟨[under, .media i j], fs, .layer i j⟩] [.layer i j] := by
    refine .cons (.refl [under]) (.cons ?_ (.refl [.layer i j]))
    rw [htwo, List.append_nil]
    exact .swap ..
  cases h with
  | text hdrawn => simpa only [hone] using Wired.single ⟨[under], _, .layer i j⟩
  | image hsrc hshape hposition hwindow => exact hover _ _ _
  | video hsrc hshape hposition hwindow => exact hover _ _ _
  | shape hdrawn => simpa only [hone] using Wired.single ⟨[under], _, .layer i j⟩

theorem LayerStep.writes {layer : Layer} (h : LayerStep base scene i j under s layer nodes s') :
    Writes (fun p => p = .media i j ∨ p = .layer i j) nodes := by
  cases h with
  | text hdrawn => exact .single (.inr rfl)
  | image hsrc hshape hposition hwindow => exact ⟨by simp, by simp⟩
  | video hsrc hshape hposition hwindow => exact ⟨by simp, by simp⟩
  | shape hdrawn => exact .single (.inr rfl)

/-- Layers take the pad under them and leave one. -/
theorem wired_layers {layers : List Layer} (hunder : under.IsWritten)
    (h : Gives (layersNodes base scene i j under layers) s (nodes, pad) s') :
    Wired [under] nodes [pad] ∧ pad.IsWritten := by
  induction layers generalizing j under s nodes with
  | nil =>
    obtain ⟨rfl, rfl, rfl⟩ := gives_layersNodes_nil.1 h
    exact ⟨.refl _, hunder⟩
  | cons layer rest ih =>
    obtain ⟨first, t, more, hfirst, hmore, rfl⟩ := gives_layersNodes_cons.1 h
    obtain ⟨hwired, hpad⟩ := ih (Pad.isWritten_layer i j) hmore
    exact ⟨(hfirst.wired hunder).append hwired, hpad⟩

theorem writes_layers {layers : List Layer}
    (h : Gives (layersNodes base scene i j under layers) s (nodes, pad) s') :
    Writes (Pad.OfLayers i j) nodes := by
  induction layers generalizing j under s nodes with
  | nil =>
    obtain ⟨rfl, -, -⟩ := gives_layersNodes_nil.1 h
    exact .nil
  | cons layer rest ih =>
    obtain ⟨first, t, more, hfirst, hmore, rfl⟩ := gives_layersNodes_cons.1 h
    refine hfirst.writes.append (ih hmore) ?_ ?_ ?_
    · rintro p (rfl | rfl) hp <;> simp only [Pad.OfLayers] at hp <;> omega
    · rintro p (rfl | rfl) <;> simp [Pad.OfLayers]
    · intro p hp
      cases p <;> simp only [Pad.OfLayers] at hp ⊢ <;> omega

/-- A scene takes no pad and leaves one. -/
theorem wired_scene (h : Gives (compile output base scene i) s (nodes, pad) s') :
    Wired [] nodes [pad] ∧ pad.IsWritten := by
  obtain ⟨background, t, more, hbackground, hmore, rfl⟩ := gives_scene.1 h
  obtain ⟨hout, hclosed⟩ := hbackground.ends
  rw [hout] at hmore
  obtain ⟨hwired, hpad⟩ := wired_layers (Pad.isWritten_background i) hmore
  refine ⟨.cons (by rw [hclosed]; exact .refl []) ?_, hpad⟩
  rwa [hout]

theorem writes_scene (h : Gives (compile output base scene i) s (nodes, pad) s') :
    Writes (Pad.OfScene i) nodes := by
  obtain ⟨background, t, more, hbackground, hmore, rfl⟩ := gives_scene.1 h
  obtain ⟨hout, -⟩ := hbackground.ends
  have hfirst : Writes (· = .background i) [background] := .single hout
  refine hfirst.append (writes_layers hmore) ?_ ?_ ?_
  · rintro p rfl hp
    exact hp
  · rintro p rfl
    rfl
  · intro p hp
    cases p <;> simp_all [Pad.OfLayers, Pad.OfScene]

end Scene

/-! ## all scenes -/

namespace Specification

variable {output : Output} {base : String} {i : Int} {s s' : Inputs} {nodes : List Node}
  {pads : List Pad} {scenes : List Scene}

/-- Scenes take no pad and leave one each. -/
theorem wired_scenes (h : Gives (compileScenes output base i scenes) s (nodes, pads) s') :
    Wired [] nodes pads ∧ ∀ p ∈ pads, p.IsWritten := by
  induction scenes generalizing i s nodes pads with
  | nil =>
    obtain ⟨rfl, rfl, -⟩ := gives_compileScenes_nil.1 h
    exact ⟨.refl [], by simp⟩
  | cons scene rest ih =>
    obtain ⟨first, pad, t, more, others, hfirst, hmore, rfl, rfl⟩ := gives_compileScenes_cons.1 h
    obtain ⟨hwired, hpad⟩ := Scene.wired_scene hfirst
    obtain ⟨hrest, hothers⟩ := ih hmore
    refine ⟨hwired.append (hrest.frame_left [pad]), ?_⟩
    rw [List.forall_mem_cons]
    exact ⟨hpad, hothers⟩

theorem writes_scenes (h : Gives (compileScenes output base i scenes) s (nodes, pads) s') :
    Writes (Pad.OfScenes i) nodes := by
  induction scenes generalizing i s nodes pads with
  | nil =>
    obtain ⟨rfl, -, -⟩ := gives_compileScenes_nil.1 h
    exact .nil
  | cons scene rest ih =>
    obtain ⟨first, pad, t, more, others, hfirst, hmore, rfl, -⟩ := gives_compileScenes_cons.1 h
    refine (Scene.writes_scene hfirst).append (ih hmore) ?_ ?_ ?_
    · intro p hp hp'
      cases p <;> simp only [Pad.OfScene, Pad.OfScenes] at hp hp' <;> omega
    · intro p hp
      cases p <;> simp only [Pad.OfScene, Pad.OfScenes] at hp ⊢ <;> omega
    · intro p hp
      cases p <;> simp only [Pad.OfScenes] at hp ⊢ <;> omega

end Specification

/-! ## joints -/

namespace Transition

variable {last : Scene} {joined out : Pad} {running : Decimal} {k : Int}
  {rest : List (Scene × Pad)} {nodes : List Node}

/-- The joints take the pads of the scenes and leave one. -/
theorem wired_joints (hjoined : joined.IsWritten) (hrest : ∀ p ∈ rest.map Prod.snd, p.IsWritten)
    (h : joints last joined running k rest = .ok (nodes, out)) :
    Wired (joined :: rest.map Prod.snd) nodes [out] := by
  induction rest generalizing last joined running k nodes with
  | nil =>
    obtain ⟨rfl, rfl⟩ := joints_nil_eq_ok.1 h
    exact .refl _
  | cons next rest ih =>
    obtain ⟨scene, pad⟩ := next
    obtain ⟨duration, -, -, -, -, next, more, -, -, -, -, -, -, -, hmore, rfl⟩ :=
      joints_cons_eq_ok.1 h
    rw [List.map_cons, List.forall_mem_cons] at hrest
    have hclosed (fs : List Filter) :
        Node.closed ⟨[joined, pad], fs, .transition k⟩ = [joined, pad] :=
      Node.closed_eq_inputs (by simpa using ⟨hjoined.2, hrest.1.2⟩)
    refine .cons ?_ (ih (Pad.isWritten_transition k) hrest.2 hmore)
    rw [hclosed]
    exact .refl _

theorem writes_joints (h : joints last joined running k rest = .ok (nodes, out)) :
    Writes (Pad.OfJoints k) nodes := by
  induction rest generalizing last joined running k nodes with
  | nil =>
    obtain ⟨rfl, -⟩ := joints_nil_eq_ok.1 h
    exact .nil
  | cons next rest ih =>
    obtain ⟨scene, pad⟩ := next
    obtain ⟨duration, -, offset, -, -, next, more, -, -, -, -, -, -, -, hmore, rfl⟩ :=
      joints_cons_eq_ok.1 h
    have hfirst : Writes (· = .transition k)
        [⟨[joined, pad], [filter last.transition.type duration offset], .transition k⟩] :=
      .single rfl
    refine hfirst.append (ih hmore) ?_ ?_ ?_
    · rintro p rfl hp
      simp only [Pad.OfJoints] at hp
      omega
    · rintro p rfl
      simp [Pad.OfJoints]
    · intro p hp
      cases p with
      | transition k' =>
        simp only [Pad.OfJoints] at hp ⊢
        omega
      | _ => exact hp.elim

/-- All scenes are joined into one pad. -/
theorem wired_chain {scenes : List Scene} {pads : List Pad} (hpads : ∀ p ∈ pads, p.IsWritten)
    (h : chain scenes pads = .ok (nodes, out)) : Wired pads nodes [out] := by
  obtain ⟨scene, pad, rest, running, -, rfl, hjoints⟩ := chain_forms h
  rw [List.forall_mem_cons] at hpads
  exact wired_joints hpads.1 hpads.2 hjoints

theorem writes_chain {scenes : List Scene} {pads : List Pad}
    (h : chain scenes pads = .ok (nodes, out)) : Writes (Pad.OfJoints 1) nodes := by
  obtain ⟨scene, pad, rest, running, -, -, h⟩ := chain_forms h
  exact writes_joints h

end Transition

/-! ## the sound -/

namespace AudioTrack

variable {anchor : Anchor} {t : Int} {tracks : List AudioTrack} {s s' : Inputs}
  {nodes : List Node}

/-- Tracks take no pad and leave one each. -/
theorem wired_tracks (h : Gives (compileAll anchor t tracks) s nodes s') :
    Wired [] nodes (nodes.map Node.output) := by
  induction tracks generalizing t s nodes with
  | nil =>
    obtain ⟨rfl, -⟩ := gives_compileAll_nil.1 h
    exact .refl []
  | cons track rest ih =>
    obtain ⟨first, u, more, hfirst, hmore, rfl⟩ := gives_compileAll_cons.1 h
    have hclosed : first.closed = [] := by
      cases hfirst
      rfl
    refine .cons (by rw [hclosed]; exact .refl []) ?_
    exact (ih hmore).frame_left [first.output]

theorem writes_tracks (h : Gives (compileAll anchor t tracks) s nodes s') :
    Writes (Pad.OfTracks t) nodes := by
  induction tracks generalizing t s nodes with
  | nil =>
    obtain ⟨rfl, -⟩ := gives_compileAll_nil.1 h
    exact .nil
  | cons track rest ih =>
    obtain ⟨first, u, more, hfirst, hmore, rfl⟩ := gives_compileAll_cons.1 h
    have hout : first.output = .track t := by
      cases hfirst
      rfl
    have hone : Writes (· = .track t) [first] := .single hout
    refine hone.append (ih hmore) ?_ ?_ ?_
    · rintro p rfl hp
      simp only [Pad.OfTracks] at hp
      omega
    · rintro p rfl
      simp [Pad.OfTracks]
    · intro p hp
      cases p with
      | track t' =>
        simp only [Pad.OfTracks] at hp ⊢
        omega
      | _ => exact hp.elim

/-- The pads of tracks are no streams of files. -/
theorem isInput_eq_false_of_tracks (h : Gives (compileAll anchor t tracks) s nodes s') :
    ∀ p ∈ nodes.map Node.output, p.isInput = false := by
  intro p hp
  have hof := (writes_tracks h).each p hp
  cases p with
  | track t' => rfl
  | _ => exact hof.elim

/-- The sound takes no pad and leaves one. -/
theorem wired_mix {sampleRate : Value} {pad : Pad}
    (h : Gives (mix anchor sampleRate tracks) s (nodes, pad) s') : Wired [] nodes [pad] := by
  obtain ⟨heard, hheard, hmix⟩ := gives_mix.1 h
  cases hmix with
  | silence hsilence =>
    obtain ⟨r, -, rfl⟩ := silence_eq_ok.1 hsilence
    exact .cons (.refl []) (.refl [.silence])
  | single node => exact wired_tracks hheard
  | mix a b rest =>
    have hclosed := Node.closed_eq_inputs (n := mixNode ((a :: b :: rest).map Node.output))
      (isInput_eq_false_of_tracks hheard)
    have hmixed := Wired.single (mixNode ((a :: b :: rest).map Node.output))
    rw [hclosed] at hmixed
    exact (wired_tracks hheard).append hmixed

theorem writes_mix {sampleRate : Value} {pad : Pad}
    (h : Gives (mix anchor sampleRate tracks) s (nodes, pad) s') : Writes Pad.OfSound nodes := by
  obtain ⟨heard, hheard, hmix⟩ := gives_mix.1 h
  have hof (p : Pad) (hp : p.OfTracks 0) : p.OfSound := by
    cases p <;> simp_all [Pad.OfTracks, Pad.OfSound]
  cases hmix with
  | silence hsilence =>
    obtain ⟨r, -, rfl⟩ := silence_eq_ok.1 hsilence
    exact .single trivial
  | single node => exact (writes_tracks hheard).mono hof
  | mix a b rest =>
    have hmixed : Writes (· = .mix) [mixNode ((a :: b :: rest).map Node.output)] := .single rfl
    refine (writes_tracks hheard).append hmixed ?_ hof ?_
    · rintro p hp rfl
      exact hp
    · rintro p rfl
      trivial

end AudioTrack

/-! ## the whole graph -/

namespace Specification

variable {spec : Specification} {base anchor : String} {s s' : Inputs} {nodes : List Node}
  {videoPad audioPad : Pad}

/-- A graph takes no pad, and leaves the pads of picture and sound. -/
theorem wired_build (h : Gives (spec.build base anchor) s (nodes, videoPad, audioPad) s') :
    Wired [] nodes [videoPad, audioPad] := by
  obtain ⟨sceneNodes, pads, t, joints, mode, soundNodes, hscenes, hchain, -, hsound, rfl⟩ :=
    gives_build.1 h
  obtain ⟨hwired, hpads⟩ := wired_scenes hscenes
  have hpicture : Wired [] (sceneNodes ++ joints) [videoPad] :=
    hwired.append (Transition.wired_chain hpads hchain)
  exact hpicture.append ((AudioTrack.wired_mix hsound).frame_left [videoPad])

/-- The scenes and the joints write different pads. -/
theorem writes_picture {output : Output} {base : String} {scenes : List Scene} {pads : List Pad}
    {sceneNodes joints : List Node}
    (hscenes : Gives (compileScenes output base 0 scenes) s (sceneNodes, pads) s')
    (hchain : Transition.chain scenes pads = .ok (joints, videoPad)) :
    Writes (fun p => p.OfScenes 0 ∨ p.OfJoints 1) (sceneNodes ++ joints) := by
  refine (writes_scenes hscenes).append (Transition.writes_chain hchain) ?_ ?_ ?_
  · intro p hp hp'
    cases p <;> simp_all [Pad.OfScenes, Pad.OfJoints]
  · exact fun p => .inl
  · exact fun p => .inr

/-- A graph writes different pads. -/
theorem writes_build (h : Gives (spec.build base anchor) s (nodes, videoPad, audioPad) s') :
    Writes Pad.IsWritten nodes := by
  obtain ⟨sceneNodes, pads, t, joints, mode, soundNodes, hscenes, hchain, -, hsound, rfl⟩ :=
    gives_build.1 h
  refine (writes_picture hscenes hchain).append (AudioTrack.writes_mix hsound) ?_ ?_ ?_
  · exact fun p => Pad.not_ofSound
  · intro p hp
    cases p <;> simp_all [Pad.OfScenes, Pad.OfJoints, Pad.IsWritten, Pad.kind?, Pad.isInput]
  · intro p hp
    cases p <;> simp_all [Pad.OfSound, Pad.IsWritten, Pad.kind?, Pad.isInput]

end Specification

end Storyboard
