import Storyboard.Proofs.Compile.Reference

/-!
# Storyboard.Proofs.Compile.Append

A specification with one track or one scene more at its end.  The numbers of inputs, layers
and joints are given out along one walk, so what is added last is numbered last: a track more
leaves the picture and the other tracks as they are, and a scene more only moves the inputs
that the tracks read.

* `Transition.chain_append` — the joints of one scene more;
* `AudioTrack.mix_later` — the sound after other inputs;
* `Specification.compile_append` — a whole graph before and after.
-/

namespace Storyboard

open Build

/-! ## the parts of a graph -/

instance Pad.decidableOfSound : DecidablePred Pad.OfSound
  | .track _ | .mix | .silence => .isTrue trivial
  | .input .. | .background _ | .layer .. | .media .. | .transition _ | .named _ =>
    .isFalse id

instance Pad.decidableOfTracks (t : Int) : DecidablePred (Pad.OfTracks t)
  | .track t' => inferInstanceAs (Decidable (t ≤ t'))
  | .input .. | .background _ | .layer .. | .media .. | .transition _ | .mix | .silence
  | .named _ => .isFalse id

namespace Graph

/-- The statements of the scenes and of the joints. -/
def pictureNodes (g : Graph) : List Node := g.nodes.filter fun n => ¬ n.output.OfSound

/-- The statements of the sound. -/
def soundNodes (g : Graph) : List Node := g.nodes.filter fun n => n.output.OfSound

/-- The statements of the tracks. -/
def trackNodes (g : Graph) : List Node := g.nodes.filter fun n => n.output.OfTracks 0

end Graph

/-! ## one scene more -/

namespace Transition

variable {last scene : Scene} {joined pad out out' : Pad} {running : Decimal} {k : Int}
  {rest : List (Scene × Pad)} {scenes : List Scene} {pads : List Pad} {nodes nodes' : List Node}

/-- One scene more is joined by one statement more. -/
theorem joints_append (h : joints last joined running k rest = .ok (nodes, out))
    (h' : joints last joined running k (rest ++ [(scene, pad)]) = .ok (nodes', out')) :
    ∃ n : Node, n.output = .transition (k + rest.length) ∧ nodes' = nodes ++ [n] ∧
      out' = n.output := by
  induction rest generalizing last joined running k nodes nodes' with
  | nil =>
    obtain ⟨rfl, rfl⟩ := joints_nil_eq_ok.1 h
    obtain ⟨duration, left, offset, length, longer, next, more, -, -, -, -, -, -, -, hmore, rfl⟩ :=
      joints_cons_eq_ok.1 h'
    obtain ⟨rfl, rfl⟩ := joints_nil_eq_ok.1 hmore
    exact ⟨_, (congrArg Pad.transition (Int.add_zero k)).symm, rfl, rfl⟩
  | cons first rest ih =>
    obtain ⟨duration, left, offset, length, longer, next, more, hduration, hleft, hoffset,
      -, hlength, hlonger, hnext, hmore, rfl⟩ := joints_cons_eq_ok.1 h
    obtain ⟨duration', left', offset', length', longer', next', more', hduration', hleft',
      hoffset', -, hlength', hlonger', hnext', hmore', rfl⟩ := joints_cons_eq_ok.1 h'
    -- all that is written and all that is carried on depends on the scenes before alone
    obtain rfl := Except.ok.inj (hduration.symm.trans hduration')
    obtain rfl := Except.ok.inj (hleft.symm.trans hleft')
    obtain rfl := Except.ok.inj (hoffset.symm.trans hoffset')
    obtain rfl := Except.ok.inj (hlength.symm.trans hlength')
    obtain rfl := Except.ok.inj (hlonger.symm.trans hlonger')
    obtain rfl := Except.ok.inj (hnext.symm.trans hnext')
    obtain ⟨n, hn, rfl, hout⟩ := ih hmore hmore'
    refine ⟨n, ?_, rfl, hout⟩
    rw [hn, List.length_cons, Int.natCast_succ, Int.add_assoc, Int.add_comm 1]

/-- Scenes that are joined have a pad each. -/
theorem length_eq_of_chain (h : chain scenes pads = .ok (nodes, out)) :
    pads.length = scenes.length := by
  by_contra hne
  rw [chain, if_pos hne] at h
  cases h

/-- Scenes are joined only if the first one has a length. -/
theorem exists_toDecimal_of_chain {first next : Scene} {rest : List Scene}
    (h : chain (first :: next :: rest) pads = .ok (nodes, out)) :
    ∃ running, first.duration.toDecimal = .ok running := by
  obtain ⟨p, q, pads, rfl⟩ : ∃ p q more, pads = p :: q :: more := by
    have hlength := length_eq_of_chain h
    match pads, hlength with
    | p :: q :: more, _ => exact ⟨p, q, more, rfl⟩
  have hlength : ¬ (p :: q :: pads).length ≠ (first :: next :: rest).length :=
    not_not.2 (length_eq_of_chain h)
  rw [chain, if_neg hlength] at h
  obtain ⟨running, hrunning, -⟩ := bind_eq_ok.1 h
  exact ⟨running, hrunning⟩

theorem chain_append (h : chain scenes pads = .ok (nodes, out))
    (h' : chain (scenes ++ [scene]) (pads ++ [pad]) = .ok (nodes', out')) :
    ∃ n : Node, n.output = .transition scenes.length ∧ nodes' = nodes ++ [n] ∧
      out' = n.output := by
  have hlength := length_eq_of_chain h
  match scenes, pads, hlength with
  | [], [], _ => cases h
  | first :: rest, p :: pads, hlength =>
    have hpads : pads.length = rest.length := Nat.succ.inj hlength
    have hpads' : (pads ++ [pad]).length = (rest ++ [scene]).length := by simpa using hpads
    obtain ⟨running, hrunning⟩ : ∃ running, first.duration.toDecimal = .ok running := by
      cases rest with
      | nil => exact exists_toDecimal_of_chain h'
      | cons next rest => exact exists_toDecimal_of_chain h
    rw [chain_cons_of_eq_ok hpads hrunning] at h
    rw [List.cons_append, List.cons_append, chain_cons_of_eq_ok hpads' hrunning,
      List.zip_append hpads.symm] at h'
    obtain ⟨n, hn, hnodes, hout⟩ := joints_append h h'
    refine ⟨n, ?_, hnodes, hout⟩
    rw [hn, List.length_zip, hpads, Nat.min_self, List.length_cons, Int.natCast_succ, Int.add_comm]

end Transition

/-- The last of several scenes is made after the others. -/
theorem Specification.compileScenes_concat {output : Output} {base : String} {i : Int}
    {s s' : Inputs} {scenes : List Scene} {scene : Scene} {nodes : List Node} {pads : List Pad}
    (h : Gives (compileScenes output base i (scenes ++ [scene])) s (nodes, pads) s') :
    ∃ before beforePads t made pad,
      Gives (compileScenes output base i scenes) s (before, beforePads) t ∧
      Gives (scene.compile output base (i + scenes.length)) t (made, pad) s' ∧
      nodes = before ++ made ∧ pads = beforePads ++ [pad] := by
  induction scenes generalizing i s nodes pads with
  | nil =>
    obtain ⟨made, pad, t, more, others, hmade, hmore, rfl, rfl⟩ := gives_compileScenes_cons.1 h
    obtain ⟨rfl, rfl, rfl⟩ := gives_compileScenes_nil.1 hmore
    refine ⟨[], [], s, made, pad, gives_compileScenes_nil.2 ⟨rfl, rfl, rfl⟩, ?_, ?_, rfl⟩
    · rwa [List.length_nil, Int.natCast_zero, Int.add_zero]
    · rw [List.append_nil, List.nil_append]
  | cons first rest ih =>
    obtain ⟨nodes, pad, t, more, others, hfirst, hmore, rfl, rfl⟩ := gives_compileScenes_cons.1 h
    obtain ⟨before, beforePads, u, made, last, hbefore, hmade, rfl, rfl⟩ := ih hmore
    refine ⟨nodes ++ before, pad :: beforePads, u, made, last,
      gives_compileScenes_cons.2 ⟨nodes, pad, t, before, beforePads, hfirst, hbefore, rfl, rfl⟩,
      ?_, (List.append_assoc ..).symm, rfl⟩
    rwa [List.length_cons, Int.natCast_succ, Int.add_comm _ 1, ← Int.add_assoc]

/-! ## one track more -/

namespace AudioTrack

variable {anchor : Anchor} {track : AudioTrack} {tracks : List AudioTrack} {t : Int}
  {sampleRate : Value} {s s' : Inputs} {heard nodes : List Node} {pad : Pad}

/-- The last of several tracks is made after the others. -/
theorem compileAll_concat (h : Gives (compileAll anchor t (tracks ++ [track])) s nodes s') :
    ∃ before u n, Gives (compileAll anchor t tracks) s before u ∧
      TrackStep anchor track (t + tracks.length) u n s' ∧ nodes = before ++ [n] := by
  induction tracks generalizing t s nodes with
  | nil =>
    obtain ⟨n, u, more, hn, hmore, rfl⟩ := gives_compileAll_cons.1 h
    obtain ⟨rfl, rfl⟩ := gives_compileAll_nil.1 hmore
    refine ⟨[], s, n, gives_compileAll_nil.2 ⟨rfl, rfl⟩, ?_, rfl⟩
    rwa [List.length_nil, Int.natCast_zero, Int.add_zero]
  | cons first rest ih =>
    obtain ⟨node, u, more, hfirst, hmore, rfl⟩ := gives_compileAll_cons.1 h
    obtain ⟨before, v, n, hbefore, hn, rfl⟩ := ih hmore
    refine ⟨node :: before, v, n,
      gives_compileAll_cons.2 ⟨node, u, before, hfirst, hbefore, rfl⟩, ?_, rfl⟩
    rwa [List.length_cons, Int.natCast_succ, Int.add_comm _ 1, ← Int.add_assoc]

/-- Next to the statements of the tracks the sound has none that writes the pad of a track. -/
theorem Mixdown.filter_ofTracks (h : Mixdown sampleRate heard nodes pad)
    (hheard : Writes (Pad.OfTracks t) heard) :
    nodes.filter (fun n => n.output.OfTracks t) = heard := by
  have hall : heard.filter (fun n => n.output.OfTracks t) = heard := by
    rw [List.filter_eq_self]
    intro n hn
    exact decide_eq_true (hheard.each _ (List.mem_map_of_mem hn))
  cases h with
  | silence hsilence =>
    obtain ⟨r, -, rfl⟩ := silence_eq_ok.1 hsilence
    rfl
  | single node => exact hall
  | mix a b rest =>
    rw [List.filter_append, hall]
    exact List.append_nil _

end AudioTrack

/-! ## other inputs before the tracks -/

/-- A stream of audio that has `m` inputs more before it. -/
def Pad.later (m : Nat) : Pad → Pad
  | .input k .audio => .input (k + m) .audio
  | p => p

theorem Pad.later_of_isInput_eq_false {p : Pad} (m : Nat) (h : p.isInput = false) :
    p.later m = p := by
  cases p with
  | input k stream => cases h
  | _ => rfl

/-- A statement whose streams of audio have `m` inputs more before them. -/
def Node.later (m : Nat) (n : Node) : Node := { n with inputs := n.inputs.map (Pad.later m) }

namespace AudioTrack

variable {anchor : Anchor} {track : AudioTrack} {tracks : List AudioTrack} {t : Int} {m : Nat}
  {sampleRate : Value} {s s' u u' : Inputs} {n n' : Node} {heard nodes nodes' : List Node}
  {pad pad' : Pad}

theorem TrackStep.later (h : TrackStep anchor track t s n u)
    (h' : TrackStep anchor track t s' n' u') (hm : s'.paths.length = s.paths.length + m) :
    n' = n.later m ∧ u'.paths.length = u.paths.length + m := by
  cases h with
  | track hsrc hfilters =>
    cases h' with
    | track hsrc' hfilters' =>
      obtain rfl := Except.ok.inj (hfilters.symm.trans hfilters')
      rw [Inputs.length_extend, Inputs.length_extend, hm]
      refine ⟨?_, Nat.add_right_comm ..⟩
      rw [Node.later, List.map_singleton, Pad.later, Int.natCast_add]

theorem compileAll_later (h : Gives (compileAll anchor t tracks) s nodes u)
    (h' : Gives (compileAll anchor t tracks) s' nodes' u')
    (hm : s'.paths.length = s.paths.length + m) : nodes' = nodes.map (Node.later m) := by
  induction tracks generalizing t s s' nodes nodes' with
  | nil =>
    obtain ⟨rfl, -⟩ := gives_compileAll_nil.1 h
    obtain ⟨rfl, -⟩ := gives_compileAll_nil.1 h'
    rfl
  | cons track rest ih =>
    obtain ⟨first, v, more, hfirst, hmore, rfl⟩ := gives_compileAll_cons.1 h
    obtain ⟨first', v', more', hfirst', hmore', rfl⟩ := gives_compileAll_cons.1 h'
    obtain ⟨rfl, hlength⟩ := hfirst.later hfirst' hm
    rw [ih hmore hmore' hlength, List.map_cons]

/-- The statement that mixes pads reads no input. -/
theorem later_mixNode {pads : List Pad} (m : Nat) (h : ∀ p ∈ pads, p.isInput = false) :
    (mixNode pads).later m = mixNode pads := by
  have hpads : pads.map (Pad.later m) = pads :=
    (List.map_congr_left fun p hp => Pad.later_of_isInput_eq_false m (h p hp)).trans
      (List.map_id' pads)
  rw [Node.later, mixNode, hpads]

theorem Mixdown.later (h : Mixdown sampleRate heard nodes pad)
    (h' : Mixdown sampleRate (heard.map (Node.later m)) nodes' pad')
    (hheard : ∀ p ∈ heard.map Node.output, p.isInput = false) :
    nodes' = nodes.map (Node.later m) ∧ pad' = pad := by
  cases h with
  | silence hsilence =>
    rw [List.map_nil] at h'
    cases h' with
    | silence hsilence' =>
      obtain rfl := Except.ok.inj (hsilence.symm.trans hsilence')
      obtain ⟨r, -, rfl⟩ := silence_eq_ok.1 hsilence
      exact ⟨rfl, rfl⟩
  | single node =>
    rw [List.map_cons, List.map_nil] at h'
    cases h' with
    | single _ => exact ⟨rfl, rfl⟩
  | mix a b rest =>
    rw [List.map_cons, List.map_cons] at h'
    cases h' with
    | mix _ _ _ =>
      have houtputs : (a.later m :: b.later m :: rest.map (Node.later m)).map Node.output
          = (a :: b :: rest).map Node.output := by
        simp [Node.later]
      rw [houtputs, List.map_append, List.map_singleton, later_mixNode m hheard]
      exact ⟨rfl, rfl⟩

/-- The sound after `m` other inputs. -/
theorem mix_later (h : Gives (mix anchor sampleRate tracks) s (nodes, pad) u)
    (h' : Gives (mix anchor sampleRate tracks) s' (nodes', pad') u')
    (hm : s'.paths.length = s.paths.length + m) :
    nodes' = nodes.map (Node.later m) ∧ pad' = pad := by
  obtain ⟨heard, hheard, hmix⟩ := gives_mix.1 h
  obtain ⟨heard', hheard', hmix'⟩ := gives_mix.1 h'
  obtain rfl := compileAll_later hheard hheard' hm
  exact hmix.later hmix' (isInput_eq_false_of_tracks hheard)

end AudioTrack

/-! ## a whole graph before and after -/

/-- The file that a reference names. -/
def Reference.path (base : String) (r : Reference) : String := Path.resolve base r.src

theorem Graph.filter_soundNodes (g : Graph) :
    g.soundNodes.filter (fun n => n.output.OfTracks 0) = g.trackNodes := by
  rw [soundNodes, List.filter_filter, trackNodes]
  refine List.filter_congr fun n _ => ?_
  rw [← Bool.decide_and]
  refine decide_eq_decide.2 (and_iff_left_of_imp ?_)
  cases n.output with
  | track t => exact fun _ => trivial
  | _ => exact False.elim

namespace Specification

variable {spec : Specification} {base anchor : String} {g g' : Graph} {track : AudioTrack}
  {scene : Scene}

/-- The references of the scenes. -/
def pictureReferences (spec : Specification) : List Reference :=
  spec.scenes.zipIdx.flatMap fun (scene, i) => scene.references i

/-- The references of the tracks. -/
def soundReferences (spec : Specification) : List Reference :=
  spec.audio.tracks.zipIdx.map fun (track, t) => track.reference t

/-- One track more. -/
def addTrack (spec : Specification) (track : AudioTrack) : Specification :=
  { spec with audio := { spec.audio with tracks := spec.audio.tracks ++ [track] } }

/-- One scene more. -/
def addScene (spec : Specification) (scene : Scene) : Specification :=
  { spec with scenes := spec.scenes ++ [scene] }

/-- The references of a scene that is added. -/
def addedReferences (spec : Specification) (scene : Scene) : List Reference :=
  scene.references spec.scenes.length

theorem inputs_compile (h : spec.compile base anchor = .ok g) : g.inputs =
    spec.pictureReferences.map (Reference.path base) ++
      spec.soundReferences.map (Reference.path base) :=
  (registers_compile h).1.trans List.map_append

theorem pictureReferences_addScene (spec : Specification) (scene : Scene) :
    (spec.addScene scene).pictureReferences =
      spec.pictureReferences ++ spec.addedReferences scene := by
  simp [pictureReferences, addScene, addedReferences, List.zipIdx_append]

theorem soundReferences_addTrack (spec : Specification) (track : AudioTrack) :
    (spec.addTrack track).soundReferences =
      spec.soundReferences ++ [track.reference spec.audio.tracks.length] := by
  simp [soundReferences, addTrack, List.zipIdx_append]

/-- What a track more changes. -/
structure TrackAdded (spec : Specification) (base : String) (track : AudioTrack) (g g' : Graph) :
    Prop where
  inputs : g'.inputs = g.inputs ++ [Path.resolve base track.src]
  picture : g'.pictureNodes = g.pictureNodes
  /-- The statements of the tracks stay, and that of the new one comes after them. -/
  tracks : ∃ n : Node, n.ends = (track.reference spec.audio.tracks.length).ends g.inputs.length ∧
    g'.trackNodes = g.trackNodes ++ [n]
  videoPad : g'.videoPad = g.videoPad

/-- What a scene more changes. -/
structure SceneAdded (spec : Specification) (base : String) (scene : Scene) (g g' : Graph) :
    Prop where
  /-- The new inputs come after those of the picture and before those of the sound. -/
  inputs : ∃ pictures sounds, pictures = spec.pictureReferences.map (Reference.path base) ∧
    sounds = spec.soundReferences.map (Reference.path base) ∧ g.inputs = pictures ++ sounds ∧
    g'.inputs = pictures ++ (spec.addedReferences scene).map (Reference.path base) ++ sounds
  /-- The statements of the picture stay, in their order. -/
  picture : g.pictureNodes.Sublist g'.pictureNodes
  /-- The others are those of the new scene and the joint that it is joined by. -/
  added : ∀ n ∈ g'.pictureNodes, n ∈ g.pictureNodes ∨ n.output.OfScene spec.scenes.length ∨
    n.output = .transition spec.scenes.length
  sound : g'.soundNodes = g.soundNodes.map (Node.later (spec.addedReferences scene).length)
  audioPad : g'.audioPad = g.audioPad

/-- The parts of a graph: the scenes, the joints after them, and the sound after both. -/
theorem parts_compile (h : spec.compile base anchor = .ok g) :
    ∃ sceneNodes pads t joints mode s,
      Gives (compileScenes spec.output base 0 spec.scenes) ⟨base, []⟩ (sceneNodes, pads) t ∧
      Transition.chain spec.scenes pads = .ok (joints, g.videoPad) ∧
      Anchor.ofName anchor = .ok mode ∧
      Gives (AudioTrack.mix mode spec.output.sampleRate spec.audio.tracks) t
        (g.soundNodes, g.audioPad) s ∧
      g.inputs = s.paths ∧ g.pictureNodes = sceneNodes ++ joints := by
  obtain ⟨-, s, hbuild, hinputs⟩ := compile_eq_ok.1 h
  obtain ⟨sceneNodes, pads, t, joints, mode, soundNodes, hscenes, hchain, hmode, hsound, hnodes⟩ :=
    gives_build.1 hbuild
  have hpicture : ∀ n ∈ sceneNodes ++ joints, ¬ n.output.OfSound := fun n hn =>
    Pad.not_ofSound ((writes_picture hscenes hchain).each _ (List.mem_map_of_mem hn))
  have hsounds : ∀ n ∈ soundNodes, n.output.OfSound :=
    fun n hn => (AudioTrack.writes_mix hsound).each _ (List.mem_map_of_mem hn)
  have hpictures : g.pictureNodes = sceneNodes ++ joints := by
    rw [Graph.pictureNodes, hnodes, List.filter_append,
      List.filter_eq_self.2 (by simpa using hpicture),
      List.filter_eq_nil_iff.2 (by simpa using hsounds), List.append_nil]
  have hsoundNodes : g.soundNodes = soundNodes := by
    rw [Graph.soundNodes, hnodes, List.filter_append,
      List.filter_eq_nil_iff.2 (by simpa using hpicture),
      List.filter_eq_self.2 (by simpa using hsounds), List.nil_append]
  rw [hsoundNodes]
  exact ⟨sceneNodes, pads, t, joints, mode, s, hscenes, hchain, hmode, hsound, hinputs, hpictures⟩

theorem trackAdded_compile (h : spec.compile base anchor = .ok g)
    (h' : (spec.addTrack track).compile base anchor = .ok g') :
    TrackAdded spec base track g g' := by
  obtain ⟨sceneNodes, pads, t, joints, mode, s, hscenes, hchain, hmode, hsound, hinputs,
    hpicture⟩ := parts_compile h
  obtain ⟨sceneNodes', pads', t', joints', mode', s', hscenes', hchain', hmode', hsound',
    hinputs', hpicture'⟩ := parts_compile h'
  obtain ⟨hpads, rfl⟩ := hscenes.unique hscenes'
  obtain ⟨rfl, rfl⟩ := Prod.mk.inj hpads
  obtain ⟨rfl, hvideo⟩ := Prod.mk.inj (Except.ok.inj (hchain.symm.trans hchain'))
  obtain rfl := Except.ok.inj (hmode.symm.trans hmode')
  obtain ⟨heard, hheard, hmix⟩ := AudioTrack.gives_mix.1 hsound
  obtain ⟨heard', hheard', hmix'⟩ := AudioTrack.gives_mix.1 hsound'
  obtain ⟨before, u, n, hbefore, hn, rfl⟩ := AudioTrack.compileAll_concat hheard'
  obtain ⟨rfl, rfl⟩ := hheard.unique hbefore
  have htracks : g.trackNodes = heard := by
    rw [← g.filter_soundNodes]
    exact hmix.filter_ofTracks (AudioTrack.writes_tracks hheard)
  have htracks' : g'.trackNodes = heard ++ [n] := by
    rw [← g'.filter_soundNodes]
    exact hmix'.filter_ofTracks (AudioTrack.writes_tracks hheard')
  constructor
  · rw [inputs_compile h, inputs_compile h', soundReferences_addTrack, List.map_append,
      List.append_assoc]
    rfl
  · rw [hpicture, hpicture']
  · rw [hinputs, htracks, htracks']
    refine ⟨n, ?_, rfl⟩
    cases hn with
    | track hsrc hfilters => rw [Int.zero_add]; rfl
  · exact hvideo.symm

theorem sceneAdded_compile (h : spec.compile base anchor = .ok g)
    (h' : (spec.addScene scene).compile base anchor = .ok g') :
    SceneAdded spec base scene g g' := by
  obtain ⟨sceneNodes, pads, t, joints, mode, s, hscenes, hchain, hmode, hsound, -, hpicture⟩ :=
    parts_compile h
  obtain ⟨sceneNodes', pads', t', joints', mode', s', hscenes', hchain', hmode', hsound', -,
    hpicture'⟩ := parts_compile h'
  obtain ⟨before, beforePads, u, made, pad, hbefore, hmade, rfl, rfl⟩ :=
    compileScenes_concat hscenes'
  obtain ⟨hpads, rfl⟩ := hscenes.unique hbefore
  obtain ⟨rfl, rfl⟩ := Prod.mk.inj hpads
  obtain ⟨joint, hjoint, rfl, -⟩ := Transition.chain_append hchain hchain'
  obtain rfl := Except.ok.inj (hmode.symm.trans hmode')
  rw [Int.zero_add] at hmade
  have hlength : t'.paths.length = t.paths.length + (spec.addedReferences scene).length := by
    rw [(Scene.registers_scene hmade).inputs, Inputs.length_extend, List.length_map]
    rfl
  obtain ⟨hsoundNodes, haudio⟩ := AudioTrack.mix_later hsound hsound' hlength
  refine ⟨⟨_, _, rfl, rfl, inputs_compile h, ?_⟩, ?_, ?_, hsoundNodes, haudio⟩
  · rw [inputs_compile h', pictureReferences_addScene, List.map_append]
    rfl
  · rw [hpicture, hpicture']
    exact (List.sublist_append_left ..).append (List.sublist_append_left ..)
  · intro n hn
    rw [hpicture'] at hn
    rw [hpicture]
    simp only [List.mem_append, List.mem_singleton] at hn ⊢
    rcases hn with (hn | hn) | hn | rfl
    · exact .inl (.inl hn)
    · exact .inr (.inl ((Scene.writes_scene hmade).each _ (List.mem_map_of_mem hn)))
    · exact .inl (.inr hn)
    · exact .inr (.inr hjoint)

/-- What comes last in a specification changes nothing that comes before it. -/
theorem compile_append (h : spec.compile base anchor = .ok g) :
    (∀ track g', (spec.addTrack track).compile base anchor = .ok g' →
      TrackAdded spec base track g g') ∧
    ∀ scene g', (spec.addScene scene).compile base anchor = .ok g' →
      SceneAdded spec base scene g g' :=
  ⟨fun _ _ => trackAdded_compile h, fun _ _ => sceneAdded_compile h⟩

/-- A film with two scenes and a track. -/
def seaside : Specification where
  scenes := [
    { id := "sea", duration := 4, background := .image "sea.png",
      transition := { type := "wipe-left", duration := 1 } },
    { id := "beach", duration := 3, transition := { type := "crossfade", duration := 1 } }]
  audio := { tracks := [{ src := "waves.mp3", start := 1 }] }

/-- A track that is added to it. -/
def gulls : AudioTrack where
  src := "gulls.mp3"

/-- A scene that is added to it. -/
def harbour : Scene where
  id := "harbour"
  duration := 5
  background := .video "harbour.mp4" {}
  layers := [.image { src := "logo.png" }]

theorem compile_append_seaside : ∃ g g₁ g₂, seaside.compile "/media" "end" = .ok g ∧
    (seaside.addTrack gulls).compile "/media" "end" = .ok g₁ ∧
    (seaside.addScene harbour).compile "/media" "end" = .ok g₂ ∧
    seaside.TrackAdded "/media" gulls g g₁ ∧ seaside.SceneAdded "/media" harbour g g₂ ∧
    (seaside.addedReferences harbour).length = 2 := by
  have hok : (seaside.compile "/media" "end").isOk = true := by decide +kernel
  have hok₁ : ((seaside.addTrack gulls).compile "/media" "end").isOk = true := by decide +kernel
  have hok₂ : ((seaside.addScene harbour).compile "/media" "end").isOk = true := by
    decide +kernel
  obtain ⟨g, hg⟩ := exists_of_isOk hok
  obtain ⟨g₁, hg₁⟩ := exists_of_isOk hok₁
  obtain ⟨g₂, hg₂⟩ := exists_of_isOk hok₂
  obtain ⟨htrack, hscene⟩ := compile_append hg
  exact ⟨g, g₁, g₂, hg, hg₁, hg₂, htrack gulls g₁ hg₁, hscene harbour g₂ hg₂, rfl⟩

end Specification

end Storyboard
