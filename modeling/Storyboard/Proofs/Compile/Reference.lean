import Storyboard.Proofs.Compile.Wiring

/-!
# Storyboard.Proofs.Compile.Reference

The files that a specification refers to, in the order in which it names them, and the
statements that read them.  A reference is a source together with the stream that is read
of it and the pad of the element that names it.  `Registers s rs nodes s'` is what every
producer keeps: the inputs grow by the sources of `rs`, and the statements that read a
file read those files, in this order, under the index that each has in the inputs.

* `Registers.append` — producers one after another;
* `Specification.registers_build` — a whole graph registers the references of its
  specification.
-/

namespace Storyboard

open Build

/-! ## references -/

/-- A file that an element names. -/
structure Reference where
  /-- The path as it is given. -/
  src : String
  /-- What is read of the file. -/
  stream : Stream
  /-- The pad of the element. -/
  pad : Pad

/-- The references of the background of scene `i`. -/
def Background.references (i : Int) : Background → List Reference
  | .image src => [⟨src, .video, .background i⟩]
  | .video src _ => [⟨src, .video, .background i⟩]
  | _ => []

/-- The references of layer `j` of scene `i`. -/
def Layer.references (i j : Int) : Layer → List Reference
  | .image l => [⟨l.src, .video, .media i j⟩]
  | .video l => [⟨l.src, .video, .media i j⟩]
  | _ => []

/-- The references of layers with their numbers. -/
def Layer.allReferences (i : Int) (layers : List (Layer × Nat)) : List Reference :=
  layers.flatMap fun (layer, j) => layer.references i j

/-- The references of scene `i`: its background, then its layers. -/
def Scene.references (i : Int) (scene : Scene) : List Reference :=
  scene.background.references i ++ Layer.allReferences i scene.layers.zipIdx

/-- The reference of track `t`. -/
def AudioTrack.reference (t : Int) (track : AudioTrack) : Reference :=
  ⟨track.src, .audio, .track t⟩

/-- The references of a specification: its scenes, then its tracks. -/
def Specification.references (spec : Specification) : List Reference :=
  (spec.scenes.zipIdx.flatMap fun (scene, i) => scene.references i)
    ++ spec.audio.tracks.zipIdx.map fun (track, t) => track.reference t

/-! ## statements that read files -/

namespace Node

/-- Whether a statement reads a file. -/
def readsFile (n : Node) : Bool := n.inputs.any Pad.isInput

theorem readsFile_eq_false {n : Node} (h : ∀ p ∈ n.inputs, p.isInput = false) :
    n.readsFile = false := by
  rw [readsFile, List.any_eq_false]
  intro p hp
  rw [h p hp]
  exact Bool.false_ne_true

/-- The pads at the two ends of a statement. -/
def ends (n : Node) : List Pad × Pad := (n.inputs, n.output)

end Node

/-- The ends of the statement that reads a reference as input `k`. -/
def Reference.ends (r : Reference) (k : Nat) : List Pad × Pad := ([.input k r.stream], r.pad)

/-- The ends of the statements that read references, of which the first is input `k`. -/
def Reference.allEnds (rs : List Reference) (k : Nat) : List (List Pad × Pad) :=
  (rs.zipIdx k).map fun (r, k) => r.ends k

theorem Reference.mem_allEnds {rs : List Reference} {k : Nat} {e : List Pad × Pad} :
    e ∈ allEnds rs k ↔ ∃ (j : Nat) (r : Reference), rs[j]? = some r ∧ e = r.ends (k + j) := by
  simp only [allEnds, List.mem_map, Prod.exists, List.mem_zipIdx_iff_le_and_getElem?_sub]
  constructor
  · rintro ⟨r, j, ⟨hle, hr⟩, rfl⟩
    exact ⟨j - k, r, hr, by rw [Nat.add_sub_cancel' hle]⟩
  · rintro ⟨j, r, hr, rfl⟩
    exact ⟨r, k + j, ⟨Nat.le_add_right k j, by rwa [Nat.add_sub_cancel_left]⟩, rfl⟩

theorem Reference.allEnds_append (rs rs' : List Reference) (k : Nat) :
    allEnds (rs ++ rs') k = allEnds rs k ++ allEnds rs' (k + rs.length) := by
  rw [allEnds, List.zipIdx_append, List.map_append]
  rfl

/-- The ends of the statements that read files. -/
def Node.fileEnds (nodes : List Node) : List (List Pad × Pad) :=
  (nodes.filter Node.readsFile).map Node.ends

theorem Node.fileEnds_append (xs ys : List Node) :
    fileEnds (xs ++ ys) = fileEnds xs ++ fileEnds ys := by
  simp [fileEnds]

/-- The references `rs` are registered after the inputs `s`, and the statements read them. -/
structure Registers (s : Inputs) (rs : List Reference) (nodes : List Node) (s' : Inputs) :
    Prop where
  inputs : s' = s.extend (rs.map Reference.src)
  ends : Node.fileEnds nodes = Reference.allEnds rs s.paths.length

namespace Registers

variable {s t s' : Inputs} {rs rs' : List Reference} {xs ys nodes : List Node} {n : Node}

theorem nil (s : Inputs) : Registers s [] [] s := ⟨by simp, rfl⟩

/-- Statements that read no file register none. -/
theorem of_readsFile_eq_false (s : Inputs) (h : ∀ n ∈ nodes, n.readsFile = false) :
    Registers s [] nodes s := by
  refine ⟨by simp, ?_⟩
  have hnone : nodes.filter Node.readsFile = [] := by
    rw [List.filter_eq_nil_iff]
    intro n hn
    rw [h n hn]
    exact Bool.false_ne_true
  rw [Node.fileEnds, hnone]
  rfl

/-- A statement that reads the next input registers one reference. -/
theorem single (s : Inputs) (r : Reference) (fs : List Filter) :
    Registers s [r] [⟨[.input s.paths.length r.stream], fs, r.pad⟩] (s.extend [r.src]) :=
  ⟨rfl, rfl⟩

theorem append (hx : Registers s rs xs t) (hy : Registers t rs' ys s') :
    Registers s (rs ++ rs') (xs ++ ys) s' := by
  have hlength : t.paths.length = s.paths.length + rs.length := by
    rw [hx.inputs, Inputs.length_extend, List.length_map]
  constructor
  · rw [hy.inputs, hx.inputs, List.map_append, Inputs.extend_append]
  · rw [Node.fileEnds_append, hx.ends, hy.ends, hlength, Reference.allEnds_append]

/-- Statements that read no file may follow. -/
theorem append_silent (hx : Registers s rs xs s') (h : ∀ n ∈ ys, n.readsFile = false) :
    Registers s rs (xs ++ ys) s' := by
  simpa using hx.append (of_readsFile_eq_false s' h)

end Registers

/-- A stream of a file that a statement reads is that of a reference, under the index that the
file has in the inputs, and the statement writes the pad of the element that names the file. -/
theorem Registers.exists_reference {s s' : Inputs} {rs : List Reference} {nodes : List Node}
    (h : Registers s rs nodes s') {n : Node} (hn : n ∈ nodes) {p : Pad} (hp : p ∈ n.inputs)
    (hinput : p.isInput = true) : ∃ (j : Nat) (r : Reference), rs[j]? = some r ∧
      n.ends = r.ends (s.paths.length + j) ∧ p = .input (s.paths.length + j : Nat) r.stream := by
  have hreads : n.readsFile = true := List.any_eq_true.2 ⟨p, hp, hinput⟩
  have hmem : n.ends ∈ Node.fileEnds nodes :=
    List.mem_map_of_mem (List.mem_filter.2 ⟨hn, hreads⟩)
  rw [h.ends, Reference.mem_allEnds] at hmem
  obtain ⟨j, r, hr, hends⟩ := hmem
  have hinputs : n.inputs = [.input (s.paths.length + j : Nat) r.stream] :=
    congrArg Prod.fst hends
  rw [hinputs, List.mem_singleton] at hp
  exact ⟨j, r, hr, hends, hp⟩

/-! ## the producers -/

namespace Scene

variable {output : Output} {base : String} {scene : Scene} {i : Int} {s s' : Inputs}
  {n : Node} {nodes : List Node} {under pad : Pad}

theorem BackgroundStep.registers (h : BackgroundStep output scene i s n s') :
    Registers s (scene.background.references i) [n] s' := by
  cases h with
  | color hbackground hrate hdrawn =>
    rw [hbackground]
    exact .of_readsFile_eq_false s (by simp [Node.readsFile])
  | gradient hbackground hrate hdrawn =>
    rw [hbackground]
    exact .of_readsFile_eq_false s (by simp [Node.readsFile])
  | image hbackground =>
    rw [hbackground]
    exact .single s ⟨_, .video, .background i⟩ _
  | video hbackground =>
    rw [hbackground]
    exact .single s ⟨_, .video, .background i⟩ _

theorem LayerStep.registers {layer : Layer} {j : Int} (hunder : under.IsWritten)
    (h : LayerStep base scene i j under s layer nodes s') :
    Registers s (layer.references i j) nodes s' := by
  have hone (fs : List Filter) : Node.readsFile ⟨[under], fs, .layer i j⟩ = false :=
    Node.readsFile_eq_false (by simpa using hunder.2)
  have htwo (fs : List Filter) : Node.readsFile ⟨[under, .media i j], fs, .layer i j⟩ = false :=
    Node.readsFile_eq_false (by simpa using ⟨hunder.2, rfl⟩)
  cases h with
  | text hdrawn => exact .of_readsFile_eq_false s (by simpa using hone _)
  | @image l shape x y window hsrc hshape hposition hwindow =>
    exact (Registers.single s ⟨l.src, .video, .media i j⟩ shape).append_silent
      (by simpa using htwo _)
  | @video l shape x y window hsrc hshape hposition hwindow =>
    exact (Registers.single s ⟨l.src, .video, .media i j⟩ shape).append_silent
      (by simpa using htwo _)
  | shape hdrawn => exact .of_readsFile_eq_false s (by simpa using hone _)

theorem registers_layers {layers : List Layer} {j : Nat} (hunder : under.IsWritten)
    (h : Gives (layersNodes base scene i j under layers) s (nodes, pad) s') :
    Registers s (Layer.allReferences i (layers.zipIdx j)) nodes s' := by
  induction layers generalizing j under s nodes with
  | nil =>
    obtain ⟨rfl, -, rfl⟩ := gives_layersNodes_nil.1 h
    exact .nil _
  | cons layer rest ih =>
    obtain ⟨first, t, more, hfirst, hmore, rfl⟩ := gives_layersNodes_cons.1 h
    exact (hfirst.registers hunder).append (ih (Pad.isWritten_layer i j) hmore)

theorem registers_scene (h : Gives (compile output base scene i) s (nodes, pad) s') :
    Registers s (scene.references i) nodes s' := by
  obtain ⟨background, t, more, hbackground, hmore, rfl⟩ := gives_scene.1 h
  have hwritten : background.output.IsWritten := by
    rw [hbackground.ends.1]
    exact Pad.isWritten_background i
  exact hbackground.registers.append (registers_layers hwritten hmore)

end Scene

namespace Specification

theorem registers_scenes {output : Output} {base : String} {scenes : List Scene} {i : Nat}
    {s s' : Inputs} {nodes : List Node} {pads : List Pad}
    (h : Gives (compileScenes output base i scenes) s (nodes, pads) s') :
    Registers s ((scenes.zipIdx i).flatMap fun (scene, i) => scene.references i) nodes s' := by
  induction scenes generalizing i s nodes pads with
  | nil =>
    obtain ⟨rfl, -, rfl⟩ := gives_compileScenes_nil.1 h
    exact .nil _
  | cons scene rest ih =>
    obtain ⟨first, pad, t, more, others, hfirst, hmore, rfl, -⟩ := gives_compileScenes_cons.1 h
    exact (Scene.registers_scene hfirst).append (ih hmore)

end Specification

theorem AudioTrack.TrackStep.registers {anchor : Anchor} {track : AudioTrack} {t : Int}
    {s s' : Inputs} {n : Node} (h : TrackStep anchor track t s n s') :
    Registers s [track.reference t] [n] s' := by
  cases h with
  | track hsrc hfilters => exact .single s (track.reference t) _

theorem AudioTrack.registers_tracks {anchor : Anchor} {tracks : List AudioTrack} {t : Nat}
    {s s' : Inputs} {nodes : List Node} (h : Gives (compileAll anchor t tracks) s nodes s') :
    Registers s ((tracks.zipIdx t).map fun (track, t) => track.reference t) nodes s' := by
  induction tracks generalizing t s nodes with
  | nil =>
    obtain ⟨rfl, rfl⟩ := gives_compileAll_nil.1 h
    exact .nil _
  | cons track rest ih =>
    obtain ⟨first, u, more, hfirst, hmore, rfl⟩ := gives_compileAll_cons.1 h
    exact hfirst.registers.append (ih hmore)

namespace Transition

/-- The joints read no file. -/
theorem readsFile_joints {last : Scene} {joined out : Pad} {running : Decimal} {k : Int}
    {rest : List (Scene × Pad)} {nodes : List Node} (hjoined : joined.IsWritten)
    (hrest : ∀ p ∈ rest.map Prod.snd, p.IsWritten)
    (h : joints last joined running k rest = .ok (nodes, out)) :
    ∀ n ∈ nodes, n.readsFile = false := by
  induction rest generalizing last joined running k nodes with
  | nil =>
    obtain ⟨rfl, -⟩ := joints_nil_eq_ok.1 h
    simp
  | cons next rest ih =>
    obtain ⟨scene, pad⟩ := next
    obtain ⟨duration, -, offset, -, -, next, more, -, -, -, -, -, -, -, hmore, rfl⟩ :=
      joints_cons_eq_ok.1 h
    rw [List.map_cons, List.forall_mem_cons] at hrest
    rw [List.forall_mem_cons]
    refine ⟨Node.readsFile_eq_false ?_, ih (Pad.isWritten_transition k) hrest.2 hmore⟩
    simpa using ⟨hjoined.2, hrest.1.2⟩

theorem readsFile_chain {scenes : List Scene} {pads : List Pad} {out : Pad} {nodes : List Node}
    (hpads : ∀ p ∈ pads, p.IsWritten) (h : chain scenes pads = .ok (nodes, out)) :
    ∀ n ∈ nodes, n.readsFile = false := by
  obtain ⟨scene, pad, rest, running, -, rfl, hjoints⟩ := chain_forms h
  rw [List.forall_mem_cons] at hpads
  exact readsFile_joints hpads.1 hpads.2 hjoints

end Transition

theorem AudioTrack.registers_mix {anchor : Anchor} {sampleRate : Value}
    {tracks : List AudioTrack} {s s' : Inputs} {nodes : List Node} {pad : Pad}
    (h : Gives (mix anchor sampleRate tracks) s (nodes, pad) s') :
    Registers s (tracks.zipIdx.map fun (track, t) => track.reference t) nodes s' := by
  obtain ⟨heard, hheard, hmix⟩ := gives_mix.1 h
  have hregisters := registers_tracks (t := 0) hheard
  cases hmix with
  | silence hsilence =>
    obtain ⟨r, -, rfl⟩ := silence_eq_ok.1 hsilence
    exact hregisters.append_silent (by simp [Node.readsFile])
  | single node => exact hregisters
  | mix a b rest =>
    refine hregisters.append_silent ?_
    simpa using Node.readsFile_eq_false (n := mixNode ((a :: b :: rest).map Node.output))
      (isInput_eq_false_of_tracks hheard)

/-- A whole graph registers the references of its specification. -/
theorem Specification.registers_build {spec : Specification} {base anchor : String}
    {s s' : Inputs} {nodes : List Node} {videoPad audioPad : Pad}
    (h : Gives (spec.build base anchor) s (nodes, videoPad, audioPad) s') :
    Registers s spec.references nodes s' := by
  obtain ⟨sceneNodes, pads, t, joints, mode, soundNodes, hscenes, hchain, -, hsound, rfl⟩ :=
    gives_build.1 h
  have hpads := (wired_scenes hscenes).2
  have hpicture := (registers_scenes (i := 0) hscenes).append_silent
    (Transition.readsFile_chain hpads hchain)
  exact hpicture.append (AudioTrack.registers_mix hsound)

/-! ## a compiled graph -/

namespace Specification

variable {spec : Specification} {base anchor : String} {g : Graph}

theorem wired_compile (h : spec.compile base anchor = .ok g) :
    Wired [] g.nodes [g.videoPad, g.audioPad] := by
  obtain ⟨-, s, hbuild, -⟩ := compile_eq_ok.1 h
  exact wired_build hbuild

theorem writes_compile (h : spec.compile base anchor = .ok g) : Writes Pad.IsWritten g.nodes := by
  obtain ⟨-, s, hbuild, -⟩ := compile_eq_ok.1 h
  exact writes_build hbuild

/-- The inputs of a graph are the sources of the references, and its statements read them. -/
theorem registers_compile (h : spec.compile base anchor = .ok g) :
    g.inputs = spec.references.map (fun r => Path.resolve base r.src) ∧
      Node.fileEnds g.nodes = Reference.allEnds spec.references 0 := by
  obtain ⟨-, s, hbuild, hinputs⟩ := compile_eq_ok.1 h
  have hregisters := registers_build hbuild
  refine ⟨?_, hregisters.ends⟩
  rw [hinputs, hregisters.inputs]
  simp

/-- A pad that a statement writes is known by its kind. -/
theorem isWritten_output (h : spec.compile base anchor = .ok g) {n : Node} (hn : n ∈ g.nodes) :
    n.output.IsWritten :=
  (writes_compile h).each n.output (List.mem_map_of_mem hn)

/-- The two ends of a graph are written in it. -/
theorem mem_output_of_end (h : spec.compile base anchor = .ok g) {p : Pad}
    (hp : p ∈ [g.videoPad, g.audioPad]) : p ∈ g.nodes.map Node.output :=
  (wired_compile h).perm.mem_iff.2 (List.mem_append_right _ hp)

/-- A pad that a statement reads is a stream of a file or is written by an earlier statement. -/
theorem earlier_compile (h : spec.compile base anchor = .ok g) {before after : List Node}
    {n : Node} (hsplit : g.nodes = before ++ n :: after) {p : Pad} (hp : p ∈ n.inputs)
    (hinput : p.isInput = false) : ∃ m ∈ before, m.output = p := by
  have hclosed : p ∈ n.closed := Node.mem_closed.2 ⟨hp, hinput⟩
  cases (wired_compile h).earlier hsplit hclosed with
  | inl hopen => exact absurd hopen (List.not_mem_nil)
  | inr hwritten => exact List.mem_map.1 hwritten

/-- A pad that a statement reads is known by its kind. -/
theorem isSome_kind?_of_mem_inputs (h : spec.compile base anchor = .ok g) {n : Node}
    (hn : n ∈ g.nodes) {p : Pad} (hp : p ∈ n.inputs) : p.kind?.isSome = true := by
  cases hinput : p.isInput with
  | true => exact Pad.isSome_kind?_of_isInput hinput
  | false =>
    obtain ⟨before, after, hsplit⟩ := List.append_of_mem hn
    obtain ⟨m, hm, rfl⟩ := earlier_compile h hsplit hp hinput
    exact (isWritten_output h (by simp [hsplit, hm])).1

/-- A statement that reads a stream of a file reads nothing else, and the file is the input of
its reference. -/
theorem ends_of_input_mem (h : spec.compile base anchor = .ok g) {n : Node} (hn : n ∈ g.nodes)
    {p : Pad} (hp : p ∈ n.inputs) (hinput : p.isInput = true) :
    ∃ (k : Nat) (r : Reference), spec.references[k]? = some r ∧ n.ends = r.ends k ∧
      p = .input k r.stream := by
  obtain ⟨-, s, hbuild, -⟩ := compile_eq_ok.1 h
  obtain ⟨k, r, hr, hends, hpad⟩ := (registers_build hbuild).exists_reference hn hp hinput
  rw [List.length_nil, Nat.zero_add] at hends hpad
  exact ⟨k, r, hr, hends, hpad⟩

/-- The statement of a reference, and that no other statement has an end of a reference with
its number. -/
theorem exists_of_reference (h : spec.compile base anchor = .ok g) {k : Nat} {r : Reference}
    (hr : spec.references[k]? = some r) :
    ∃ before n after, g.nodes = before ++ n :: after ∧ n.ends = r.ends k ∧
      ∀ m ∈ before ++ after, m.readsFile = true → ∃ (j : Nat) (r' : Reference),
        j ≠ k ∧ m.ends = r'.ends j := by
  have hends := (registers_compile h).2
  obtain ⟨hk, hrk⟩ := List.getElem?_eq_some_iff.1 hr
  have hsplit : spec.references
      = spec.references.take k ++ r :: spec.references.drop (k + 1) := by
    rw [← hrk, List.getElem_cons_drop, List.take_append_drop]
  have hlength : (spec.references.take k).length = k := by
    rw [List.length_take, Nat.min_eq_left (Nat.le_of_lt hk)]
  generalize spec.references.take k = first at hsplit hlength
  generalize spec.references.drop (k + 1) = last at hsplit
  rw [hsplit, Reference.allEnds_append, hlength, Nat.zero_add, Node.fileEnds,
    List.map_eq_append_iff] at hends
  obtain ⟨xs, ys, hfilter, hxs, hys⟩ := hends
  obtain ⟨before, others, hnodes, hbefore, hothers⟩ := List.filter_eq_append_iff.1 hfilter
  obtain ⟨n, zs, rfl, hn, hzs⟩ := List.map_eq_cons_iff.1 hys
  obtain ⟨skipped, after, rfl, hskipped, -, hafter⟩ := List.filter_eq_cons_iff.1 hothers
  refine ⟨before ++ skipped, n, after, by rw [hnodes, List.append_assoc], hn, ?_⟩
  intro m hm hreads
  simp only [List.mem_append, or_assoc] at hm
  rcases hm with hm | hm | hm
  · have hmem : m.ends ∈ Reference.allEnds first 0 := by
      rw [← hxs, ← hbefore]
      exact List.mem_map_of_mem (List.mem_filter.2 ⟨hm, hreads⟩)
    obtain ⟨j, r', hr', hm'⟩ := Reference.mem_allEnds.1 hmem
    have hj : j < first.length := (List.getElem?_eq_some_iff.1 hr').1
    exact ⟨0 + j, r', by omega, hm'⟩
  · exact absurd hreads (hskipped m hm)
  · have hmem : m.ends ∈ Reference.allEnds last (k + 1) := by
      rw [Reference.allEnds, ← hzs, ← hafter]
      exact List.mem_map_of_mem (List.mem_filter.2 ⟨hm, hreads⟩)
    obtain ⟨j, r', -, hm'⟩ := Reference.mem_allEnds.1 hmem
    exact ⟨k + 1 + j, r', by omega, hm'⟩

end Specification

end Storyboard
