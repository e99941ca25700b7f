import Storyboard.Proofs.Compile.Failure
import Storyboard.Proofs.Compile.WellFormed

/-!
# Storyboard.Proofs.Compile.Timeline

When a compiled graph has its scenes on.  Three walks reckon with the lengths of scenes and
their transitions: the one that looks up the start of a scene, the one that joins the scenes, and
the one that adds up the total; all of them agree with the one closed form `Scene.startAt`.

* `Specification.joint_compile` — the joints of a graph;
* `Specification.timeline_compile` — the starts, the joints and the total agree.
-/

namespace Storyboard

open Build

namespace Specification

variable {spec : Specification} {base anchor : String} {g : Graph}

/-- The joints of a graph lay its scenes one over another. -/
theorem joint_compile (h : spec.compile base anchor = .ok g) (hfits : Scene.Fits 0 spec.scenes)
    {k : Nat} (hk : k + 1 < spec.scenes.length) :
    ∃ n ∈ g.nodes, Transition.IsJoint n
      (if k = 0 then spec.scenes[0].pad 0 else .transition k) (spec.scenes[k + 1].pad (k + 1))
      spec.scenes[k] (Scene.offsetAt spec.scenes (k + 1)) (k + 1) := by
  obtain ⟨hne, s, hbuild, -⟩ := compile_eq_ok.1 h
  obtain ⟨sceneNodes, pads, t, joints, mode, soundNodes, hscenes, hchain, -, -, hnodes⟩ :=
    gives_build.1 hbuild
  have hpads := compileScenes_pads hscenes
  obtain ⟨joints', out, hchain', -, hjoint⟩ :=
    Transition.chain_eq hne hfits (by rw [hpads, List.length_mapIdx] : pads.length = _)
  rw [hchain] at hchain'
  obtain ⟨rfl, -⟩ := Prod.mk.inj (Except.ok.inj hchain')
  have hpad {j : Nat} (hj : j < spec.scenes.length) : pads[j]? = some (spec.scenes[j].pad j) := by
    simp [hpads, hj]
  have hk' : k < spec.scenes.length := Nat.lt_of_succ_lt hk
  obtain ⟨n, hn, hn'⟩ := hjoint k _ _ _ (List.getElem?_eq_getElem hk') (hpad (by omega)) (hpad hk)
  refine ⟨n, ?_, hn'⟩
  rw [hnodes]
  exact List.mem_append_left _ (List.mem_append_right _ (List.mem_of_getElem? hn))

/-- The scenes of a document start, in the look-up and in the graph, where those before them end,
less the transitions between them; the total is the end of the last of them, and the transitions
that it does not know of. -/
theorem timeline_compile {data : Value} (hdata : ofValue data = .ok spec)
    (htimes : Scene.HasExactTimes spec.scenes) :
    (∀ k (hk : k < spec.scenes.length), spec.scene? spec.scenes[k].id = some spec.scenes[k] ∧
      ∃ d, spec.sceneStart spec.scenes[k].id = .ok d ∧
        d.toRat? = some (Scene.startAt spec.scenes k)) ∧
    (∀ base anchor g, spec.compile base anchor = .ok g →
      ∀ k (hk : k + 1 < spec.scenes.length), ∃ n,
        g.node? (Pad.transition (k + 1)).label = some n ∧
        Transition.IsJoint n (if k = 0 then spec.scenes[0].pad 0 else .transition k)
          (spec.scenes[k + 1].pad (k + 1)) spec.scenes[k]
          (max 0 (Scene.startAt spec.scenes (k + 1))) (k + 1)) ∧
    ∃ last d, spec.scenes.getLast? = some last ∧ spec.totalDuration = .ok d ∧
      d.toRat? = some (Scene.startAt spec.scenes (spec.scenes.length - 1) + last.length +
        ((spec.scenes.take (spec.scenes.length - 1)).map Scene.overlap).sum) := by
  have haccepted := accepted_of_ofValue hdata
  have hfits := htimes.fits haccepted.scene
  refine ⟨fun k hk => ⟨scene?_of_mem haccepted.ids (List.getElem_mem hk),
    sceneStart_eq haccepted.ids hfits hk⟩, fun base anchor g hg k hk => ?_, ?_⟩
  · obtain ⟨n, hn, hn'⟩ := joint_compile hg hfits hk
    have hfound := Graph.node?_of_nodup (nodup_labels hg) hn
    obtain ⟨duration, start, rfl, -⟩ := id hn'
    exact ⟨_, hfound, hn'⟩
  · obtain ⟨d, hd, hd'⟩ := totalDuration_eq hfits
    refine ⟨_, d, List.getLast?_eq_getLast_of_ne_nil haccepted.scenes, hd, ?_⟩
    rw [hd', Scene.sum_length_eq haccepted.scenes]

/-- The scenes of the short film. -/
def shortScenes : List Scene :=
  [{ id := "sky", duration := 2.5, background := .gradient ["#0000FF", "white"] "vertical",
      transition := { type := "crossfade", duration := 0.5 } },
    { id := "sea", duration := 3,
      layers := [.image { src := "logo.png", opacity := 0.5, start := 1 }] }]

theorem ofValue_shortFilm : ofValue shortFilm =
    .ok { scenes := shortScenes, audio := { tracks := [{ src := "song.mp3" }] } } := by
  with_unfolding_all rfl

theorem hasExactTimes_shortScenes : Scene.HasExactTimes shortScenes where
  length := by
    have hlong : Value.InMillionths 2.5 := ⟨_, Value.seconds?_five_halves, 2500000, by norm_num⟩
    simp [shortScenes, hlong]
  overlap := by
    have hhalf : Value.InMillionths 0.5 := ⟨_, Value.seconds?_half, 500000, by norm_num⟩
    simp [shortScenes, hhalf]
  small := by
    norm_num [shortScenes, Scene.length, Scene.overlap, Value.seconds_five_halves,
      Value.seconds_half]

/-- Its second scene starts two seconds in, in the look-up as in the graph, and the scenes last
five seconds and a half together. -/
theorem timeline_shortFilm : ∃ spec g start n total, ofValue shortFilm = .ok spec ∧
    Scene.HasExactTimes spec.scenes ∧ spec.scenes[1]? = spec.scene? "sea" ∧
    spec.sceneStart "sea" = .ok start ∧ start.toRat? = some 2 ∧
    spec.compile "/media" "end" = .ok g ∧ g.node? "xfade1" = some n ∧
    Transition.IsJoint n (.background 0) (.layer 1 0) shortScenes[0] 2 1 ∧
    spec.totalDuration = .ok total ∧ total.toRat? = some 5.5 := by
  have haccepted := accepted_of_ofValue ofValue_shortFilm
  have hbounds := haccepted.inBounds (by decide +kernel)
  obtain ⟨g, hg⟩ : ∃ g, compile _ "/media" "end" = .ok g :=
    exists_compile hbounds nofun ⟨_, rfl⟩ haccepted.not_isFaulty
  obtain ⟨hstarts, hjoints, last, total, hlast, htotal, htotal'⟩ :=
    timeline_compile ofValue_shortFilm hasExactTimes_shortScenes
  obtain ⟨hfound, start, hstart, hstart'⟩ := hstarts 1 (by decide)
  obtain ⟨n, hn, hn'⟩ := hjoints _ _ g hg 0 (by decide)
  obtain rfl : shortScenes[1] = last := Option.some.inj hlast
  have hsecond : Scene.startAt shortScenes 1 = 2 := by
    norm_num [shortScenes, Scene.length, Scene.overlap, Value.seconds_five_halves,
      Value.seconds_half]
  have hsum : Scene.startAt shortScenes 1 + shortScenes[1].length
      + ((shortScenes.take 1).map Scene.overlap).sum = 5.5 := by
    rw [hsecond]
    norm_num [shortScenes, Scene.length, Scene.overlap, Value.seconds_half]
  refine ⟨_, g, start, n, total, ofValue_shortFilm, hasExactTimes_shortScenes, hfound.symm, hstart,
    hstart'.trans (congrArg some hsecond), hg, hn, ?_, htotal,
    htotal'.trans (congrArg some hsum)⟩
  have hoffset : max 0 (Scene.startAt shortScenes 1) = 2 := by norm_num [hsecond]
  rw [← hoffset]
  exact hn'

end Specification

end Storyboard
