import Storyboard.Proofs.Compile.Reference

/-!
# Storyboard.Proofs.Compile.Session

Steps on one list of inputs.  Files may be registered, and scenes, tracks and mixes compiled, in
any order and any number of times, and a step may fail at any point; what it registered until then
stays.  So the list of inputs only ever grows, and an index that was given once means the same
file for good.

* `Build.Grows` — a step only adds inputs, also if it fails;
* `Session.coherent_record` — what one step keeps;
* `Session.coherent` — what every run of steps keeps.
-/

namespace Storyboard

open Build

variable {α β : Type}

/-! ## steps that only add inputs -/

namespace Build

/-- A step only adds inputs, whether it succeeds or not. -/
def Grows (x : Build α) : Prop := ∀ s, ∃ srcs, (x.run.run s).2 = s.extend srcs

namespace Grows

variable {x : Build α} {f : α → Build β}

theorem pure (a : α) : Grows (pure a : Build α) := fun s => ⟨[], s.extend_nil.symm⟩

theorem throw (e : Fault) : Grows (throw e : Build α) := fun s => ⟨[], s.extend_nil.symm⟩

theorem lift (x : Except Fault α) : Grows (liftM x : Build α) := by
  intro s
  cases x <;> exact ⟨[], s.extend_nil.symm⟩

theorem register (src : String) : Grows (Inputs.register src) := by
  intro s
  by_cases hsrc : src = ""
  · subst hsrc
    exact ⟨[], by rw [Inputs.register_empty, Inputs.extend_nil]⟩
  · exact ⟨[src], by rw [Inputs.register_paths hsrc]; rfl⟩

/-- After a step that fails, no other step is taken. -/
theorem bind (hx : Grows x) (hf : ∀ a, Grows (f a)) : Grows (x >>= f) := by
  intro s
  obtain ⟨srcs, hsrcs⟩ := hx s
  simp only [ExceptT.run_bind, StateT.run_bind]
  rcases hrun : x.run.run s with ⟨_ | a, t⟩
  · rw [hrun] at hsrcs
    exact ⟨srcs, hsrcs⟩
  · rw [hrun] at hsrcs
    obtain ⟨more, hmore⟩ := hf a t
    refine ⟨srcs ++ more, ?_⟩
    rw [Inputs.extend_append, ← hsrcs]
    exact hmore

theorem lift_bind {x : Except Fault α} (hf : ∀ a, Grows (f a)) : Grows (liftM x >>= f) :=
  (lift x).bind hf

theorem register_bind {src : String} {f : Nat → Build β} (hf : ∀ k, Grows (f k)) :
    Grows (Inputs.register src >>= f) :=
  (register src).bind hf

end Grows

end Build

theorem Scene.grows_backgroundNode (output : Output) (scene : Scene) (i : Int) :
    Grows (backgroundNode output scene i) := by
  unfold backgroundNode
  refine .lift_bind fun rate => ?_
  split
  · exact .lift_bind fun _ => .pure _
  · exact .lift_bind fun _ => .pure _
  · exact .throw _
  · exact .register_bind fun _ => .lift_bind fun _ => .lift_bind fun _ => .pure _
  · exact .register_bind fun _ => .lift_bind fun _ => .lift_bind fun _ => .lift_bind fun _ =>
      .lift_bind fun _ => .lift_bind fun _ => .lift_bind fun _ => .pure _
  · exact .throw _

theorem Scene.grows_layerNodes (base : String) (scene : Scene) (i j : Int) (layer : Layer)
    (under : Pad) : Grows (layerNodes base scene i j layer under) := by
  cases layer with
  | text l => exact .lift_bind fun _ => .pure _
  | image l => exact .register_bind fun _ => .lift_bind fun _ => .lift _
  | video l => exact .register_bind fun _ => .lift_bind fun _ => .lift _
  | shape l => exact .lift_bind fun _ => .pure _
  | other kind form => exact .throw _

theorem Scene.grows_layersNodes (base : String) (scene : Scene) (i j : Int) (under : Pad)
    (layers : List Layer) : Grows (layersNodes base scene i j under layers) := by
  induction layers generalizing j under with
  | nil => exact .pure _
  | cons layer rest ih =>
    exact (grows_layerNodes base scene i j layer under).bind fun _ => (ih _ _).bind fun _ => .pure _

theorem Scene.grows_compile (output : Output) (base : String) (scene : Scene) (i : Int) :
    Grows (compile output base scene i) :=
  (grows_backgroundNode output scene i).bind fun _ =>
    (grows_layersNodes base scene i 0 _ _).bind fun _ => .pure _

theorem AudioTrack.grows_compile (anchor : Anchor) (track : AudioTrack) (t : Int) :
    Grows (compile anchor track t) :=
  .register_bind fun _ => .lift_bind fun _ => .pure _

theorem AudioTrack.grows_compileAll (anchor : Anchor) (t : Int) (tracks : List AudioTrack) :
    Grows (compileAll anchor t tracks) := by
  induction tracks generalizing t with
  | nil => exact .pure _
  | cons track rest ih =>
    exact (grows_compile anchor track t).bind fun _ => (ih _).bind fun _ => .pure _

theorem AudioTrack.grows_mix (anchor : Anchor) (sampleRate : Value) (tracks : List AudioTrack) :
    Grows (mix anchor sampleRate tracks) := by
  refine (grows_compileAll anchor 0 tracks).bind fun nodes => ?_
  split
  · exact .lift_bind fun _ => .pure _
  · exact .pure _
  · exact .pure _

/-! ## the steps of a session -/

/-- The index of the input that a pad is a stream of. -/
def Pad.file? : Pad → Option Int
  | .input k _ => some k
  | _ => none

theorem Pad.file?_eq_none {p : Pad} (h : p.isInput = false) : p.file? = none := by
  cases p <;> first | rfl | exact absurd h (by simp [isInput])

/-- The indices of the inputs that a statement reads. -/
def Node.files (n : Node) : List Int := n.inputs.filterMap Pad.file?

theorem Node.files_eq_nil {n : Node} (h : n.readsFile = false) : n.files = [] := by
  rw [readsFile, List.any_eq_false] at h
  exact List.filterMap_eq_nil_iff.2 fun p hp => Pad.file?_eq_none (by simpa using h p hp)

theorem Node.flatMap_files (nodes : List Node) :
    nodes.flatMap files = (fileEnds nodes).flatMap fun e => e.1.filterMap Pad.file? := by
  induction nodes with
  | nil => rfl
  | cons n rest ih =>
    rw [List.flatMap_cons, ih, fileEnds, fileEnds]
    cases hreads : n.readsFile with
    | true => rw [List.filter_cons_of_pos hreads]; rfl
    | false => rw [files_eq_nil hreads, List.filter_cons_of_neg (by simp [hreads])]; rfl

/-- Every input that is registered is read by one pad. -/
theorem Registers.files {s s' : Inputs} {rs : List Reference} {nodes : List Node}
    (h : Registers s rs nodes s') :
    nodes.flatMap Node.files = (List.range' s.paths.length rs.length).map Nat.cast := by
  rw [Node.flatMap_files, h.ends, Reference.allEnds, List.flatMap_map,
    ← List.zipIdx_map_snd s.paths.length rs, List.map_map, List.map_eq_flatMap]
  rfl

/-- What scenes and sound are compiled with, next to the inputs. -/
structure Session where
  output : Output
  /-- The folder that the fonts of captions are meant from. -/
  fonts : String
  anchor : Anchor
  sampleRate : Value

namespace Session

/-- A step that is taken on the inputs. -/
inductive Step
  | register (src : String)
  | compileScene (scene : Scene) (i : Int)
  | compileTrack (track : AudioTrack) (t : Int)
  | mix (tracks : List AudioTrack)

/-- What a step that succeeds gives: the index of a file, or statements and the pad that they
leave by. -/
inductive Yield
  | index (k : Nat)
  | statements (nodes : List Node) (pad : Pad)

/-- The statements that a step gives. -/
def Yield.nodes : Yield → List Node
  | .index _ => []
  | .statements nodes _ => nodes

/-- The indices that a step gives, on their own or in pads. -/
def Yield.files : Yield → List Int
  | .index k => [k]
  | .statements nodes _ => nodes.flatMap Node.files

/-- One step. -/
def run (session : Session) : Step → Build Yield
  | .register src => do return .index (← Inputs.register src)
  | .compileScene scene i => do
    let (nodes, pad) ← scene.compile session.output session.fonts i
    return .statements nodes pad
  | .compileTrack track t => do
    let node ← track.compile session.anchor t
    return .statements [node] node.output
  | .mix tracks => do
    let (nodes, pad) ← AudioTrack.mix session.anchor session.sampleRate tracks
    return .statements nodes pad

/-- The references in the elements that a step is given. -/
def Step.references : Step → List Reference
  | .register _ => []
  | .compileScene scene i => scene.references i
  | .compileTrack track t => [track.reference t]
  | .mix tracks => tracks.zipIdx.map fun (track, t) => track.reference t

variable {session : Session} {step : Step} {yield : Yield} {s s' : Inputs}

theorem grows_run (session : Session) (step : Step) : Grows (session.run step) := by
  cases step with
  | register src => exact .register_bind fun _ => .pure _
  | compileScene scene i => exact (scene.grows_compile _ _ i).bind fun _ => .pure _
  | compileTrack track t => exact (track.grows_compile _ t).bind fun _ => .pure _
  | mix tracks => exact (AudioTrack.grows_mix _ _ tracks).bind fun _ => .pure _

/-- What a step that succeeds registers: a source as it is, or the references of its elements. -/
inductive Registration (s : Inputs) : Step → Yield → Inputs → Prop
  | register {src : String} (hsrc : src ≠ "") :
      Registration s (.register src) (.index s.paths.length) (s.extend [src])
  | compiled {step : Step} {nodes : List Node} {pad : Pad} {s' : Inputs}
      (h : Registers s step.references nodes s') : Registration s step (.statements nodes pad) s'

theorem registration_of_gives (h : Gives (session.run step) s yield s') :
    Registration s step yield s' := by
  cases step with
  | register src =>
    obtain ⟨hsrc, h⟩ := gives_register_bind.1 h
    obtain ⟨rfl, rfl⟩ := gives_pure.1 h
    exact .register hsrc
  | compileScene scene i =>
    obtain ⟨⟨nodes, pad⟩, t, hscene, h⟩ := gives_bind.1 h
    obtain ⟨rfl, rfl⟩ := gives_pure.1 h
    exact .compiled (Scene.registers_scene hscene)
  | compileTrack track t =>
    obtain ⟨node, u, htrack, h⟩ := gives_bind.1 h
    obtain ⟨rfl, rfl⟩ := gives_pure.1 h
    exact .compiled (AudioTrack.gives_track.1 htrack).registers
  | mix tracks =>
    obtain ⟨⟨nodes, pad⟩, t, hmix, h⟩ := gives_bind.1 h
    obtain ⟨rfl, rfl⟩ := gives_pure.1 h
    exact .compiled (AudioTrack.registers_mix hmix)

/-! ## records -/

/-- What is seen of a step: the paths before it, what came of it, and the paths after it. -/
structure Record where
  step : Step
  before : List String
  outcome : Except Fault Yield
  after : List String

/-- The inputs after one step. -/
def after (session : Session) (s : Inputs) (step : Step) : Inputs :=
  ((session.run step).run.run s).2

/-- The record of one step. -/
def record (session : Session) (s : Inputs) (step : Step) : Record :=
  ⟨step, s.paths, ((session.run step).run.run s).1, (session.after s step).paths⟩

/-- The records of steps that are taken one after another.  A step that fails does not end the
session: the next one starts from the inputs that it left. -/
def records (session : Session) : Inputs → List Step → List Record
  | _, [] => []
  | s, step :: rest => session.record s step :: records session (session.after s step) rest

/-- The statements of a step; one that fails gives none. -/
def Record.nodes (r : Record) : List Node := r.outcome.toOption.elim [] Yield.nodes

/-- The indices of a step; one that fails gives none. -/
def Record.files (r : Record) : List Int := r.outcome.toOption.elim [] Yield.files

/-- What one step keeps, with relative paths meant from `base`. -/
structure Record.Coherent (base : String) (r : Record) : Prop where
  /-- Nothing is lost or moved, also if the step fails. -/
  grows : r.before <+: r.after
  /-- A source is registered, unless it is empty: then the step fails and nothing changes. -/
  register : ∀ src, r.step = .register src →
    if src = "" then r.outcome = .error (.inconsistent .sourceMissing) ∧ r.after = r.before
    else r.outcome = .ok (.index r.before.length) ∧
      r.after = r.before ++ [Path.resolve base src]
  /-- Statements come with one path for each reference of their elements. -/
  appends : ∀ nodes pad, r.outcome = .ok (.statements nodes pad) →
    r.after = r.before ++ r.step.references.map fun ref => Path.resolve base ref.src
  /-- Every index that a step which succeeds gives belongs to one pad. -/
  files : ∀ yield, r.outcome = .ok yield → r.files =
    (List.range' r.before.length (r.after.length - r.before.length)).map Nat.cast
  /-- What a pad reads is the source of the element that its statement belongs to. -/
  reads : ∀ n ∈ r.nodes, ∀ (k : Int) (stream : Stream), .input k stream ∈ n.inputs →
    ∃ (file : Nat) (ref : Reference), k = file ∧ r.before.length ≤ file ∧
      file < r.after.length ∧ r.step.references[file - r.before.length]? = some ref ∧
      ref.pad = n.output ∧ ref.stream = stream ∧
      r.after[file]? = some (Path.resolve base ref.src)

/-- What a whole run of steps keeps. -/
structure Coherent (base : String) (records : List Record) : Prop where
  each : ∀ r ∈ records, r.Coherent base
  /-- A step starts with all paths that any earlier step left. -/
  chained : records.Pairwise fun r r' => r.after <+: r'.before
  /-- The file that a pad reads stays the same in every later state. -/
  settled : ∀ earlier r later, records = earlier ++ r :: later →
    ∀ n ∈ r.nodes, ∀ (k : Int) (stream : Stream), .input k stream ∈ n.inputs →
      ∃ (file : Nat) (ref : Reference), k = file ∧ ref ∈ r.step.references ∧
        ref.pad = n.output ∧ ref.stream = stream ∧
        ∀ state ∈ r :: later, state.after[file]? = some (Path.resolve base ref.src)
  /-- No index is given twice. -/
  distinct : (records.flatMap Record.files).Nodup

/-! ## one step -/

namespace Registration

/-- The indices that a step gives are those of the paths that it adds. -/
theorem files (h : Registration s step yield s') :
    yield.files = (List.range' s.paths.length (s'.paths.length - s.paths.length)).map Nat.cast := by
  cases h with
  | register hsrc =>
    rw [Inputs.length_extend, Nat.add_sub_cancel_left]
    rfl
  | compiled h =>
    rw [h.inputs, Inputs.length_extend, Nat.add_sub_cancel_left, List.length_map]
    exact h.files

theorem reads (h : Registration s step yield s') {n : Node} (hn : n ∈ yield.nodes) {k : Int}
    {stream : Stream} (hp : .input k stream ∈ n.inputs) :
    ∃ (file : Nat) (ref : Reference), k = file ∧ s.paths.length ≤ file ∧
      file < s'.paths.length ∧ step.references[file - s.paths.length]? = some ref ∧
      ref.pad = n.output ∧ ref.stream = stream ∧
      s'.paths[file]? = some (Path.resolve s.base ref.src) := by
  cases h with
  | register hsrc => exact absurd hn List.not_mem_nil
  | compiled h =>
    obtain ⟨j, ref, href, hends, hpad⟩ := h.exists_reference hn hp rfl
    obtain ⟨hk, hstream⟩ := Pad.input.inj hpad
    have hj : j < step.references.length := (List.getElem?_eq_some_iff.1 href).1
    refine ⟨s.paths.length + j, ref, hk, Nat.le_add_right .., ?_, ?_, ?_, hstream.symm, ?_⟩
    · rw [h.inputs, Inputs.length_extend, List.length_map]
      omega
    · rwa [Nat.add_sub_cancel_left]
    · exact (congrArg Prod.snd hends).symm
    · rw [h.inputs, Inputs.extend_paths, List.getElem?_append_right (Nat.le_add_right ..),
        Nat.add_sub_cancel_left, List.map_map, List.getElem?_map, href]
      rfl

end Registration

theorem registration_of_outcome (h : (session.record s step).outcome = .ok yield) :
    Registration s step yield (session.after s step) :=
  registration_of_gives (Prod.ext h rfl)

theorem base_after (session : Session) (s : Inputs) (step : Step) :
    (session.after s step).base = s.base := by
  obtain ⟨srcs, h⟩ := session.grows_run step s
  rw [after, h, Inputs.extend_base]

theorem prefix_after (session : Session) (s : Inputs) (step : Step) :
    s.paths <+: (session.after s step).paths := by
  obtain ⟨srcs, h⟩ := session.grows_run step s
  rw [after, h, Inputs.extend_paths]
  exact List.prefix_append ..

theorem run_register (session : Session) (s : Inputs) {src : String} (hsrc : src ≠ "") :
    Gives (session.run (.register src)) s (.index s.paths.length) (s.extend [src]) :=
  gives_register_bind.2 ⟨hsrc, gives_pure.2 ⟨rfl, rfl⟩⟩

/-- Every step keeps what was registered and reads what it registers. -/
theorem coherent_record (session : Session) (s : Inputs) (step : Step) :
    (session.record s step).Coherent s.base where
  grows := session.prefix_after s step
  register := by
    rintro src rfl
    split
    · next hsrc =>
      subst hsrc
      exact ⟨rfl, rfl⟩
    · next hsrc =>
      have hgives := session.run_register s hsrc
      exact ⟨congrArg Prod.fst hgives, congrArg (Inputs.paths ∘ Prod.snd) hgives⟩
  appends nodes pad h := by
    cases hstep : registration_of_outcome h with
    | compiled hregisters =>
      show (session.after s step).paths = _
      rw [hregisters.inputs, Inputs.extend_paths, List.map_map]
      rfl
  files yield h := by
    rw [Record.files, h]
    exact (registration_of_outcome h).files
  reads n hn k stream hp := by
    rw [Record.nodes] at hn
    cases h : (session.record s step).outcome with
    | error e =>
      rw [h] at hn
      exact absurd hn List.not_mem_nil
    | ok yield =>
      rw [h] at hn
      exact (registration_of_outcome h).reads hn hp

/-! ## a run of steps -/

/-- Every later step starts with the paths that there are. -/
theorem prefix_before {r : Record} {steps : List Step} (hr : r ∈ session.records s steps) :
    s.paths <+: r.before := by
  induction steps generalizing s with
  | nil => exact absurd hr List.not_mem_nil
  | cons step rest ih =>
    rcases List.mem_cons.1 hr with rfl | hr
    · exact List.prefix_rfl
    · exact (session.prefix_after s step).trans (ih hr)

theorem coherent_of_mem {r : Record} {steps : List Step} (hr : r ∈ session.records s steps) :
    r.Coherent s.base := by
  induction steps generalizing s with
  | nil => exact absurd hr List.not_mem_nil
  | cons step rest ih =>
    rcases List.mem_cons.1 hr with rfl | hr
    · exact session.coherent_record s step
    · rw [← session.base_after s step]
      exact ih hr

theorem chained_records (session : Session) (s : Inputs) (steps : List Step) :
    (session.records s steps).Pairwise fun r r' => r.after <+: r'.before := by
  induction steps generalizing s with
  | nil => exact .nil
  | cons step rest ih => exact .cons (fun r hr => prefix_before hr) (ih _)

namespace Record.Coherent

variable {base : String} {r : Record}

/-- The indices of a step lie between the lengths of the list before and after it. -/
theorem mem_files (h : r.Coherent base) {k : Int} (hk : k ∈ r.files) :
    ∃ file : Nat, k = file ∧ r.before.length ≤ file ∧ file < r.after.length := by
  cases houtcome : r.outcome with
  | error e =>
    rw [Record.files, houtcome] at hk
    exact absurd hk List.not_mem_nil
  | ok yield =>
    rw [h.files yield houtcome] at hk
    obtain ⟨file, hfile, rfl⟩ := List.mem_map.1 hk
    rw [List.mem_range'_1] at hfile
    exact ⟨file, rfl, hfile.1, by omega⟩

theorem nodup_files (h : r.Coherent base) : r.files.Nodup := by
  cases houtcome : r.outcome with
  | error e =>
    rw [Record.files, houtcome]
    exact .nil
  | ok yield =>
    rw [h.files yield houtcome]
    exact List.Pairwise.map Nat.cast (fun a b hab => by omega) (List.nodup_range' 1)

end Record.Coherent

/-- However registrations, scenes, tracks and mixes follow one another, and whichever of them
fail, the indices that were given stay apart and keep their meaning. -/
theorem coherent (session : Session) (s : Inputs) (steps : List Step) :
    Coherent s.base (session.records s steps) := by
  have hchained := session.chained_records s steps
  have heach : ∀ r ∈ session.records s steps, r.Coherent s.base := fun r => coherent_of_mem
  refine ⟨heach, hchained, ?_, ?_⟩
  · intro earlier r later hsplit n hn k stream hp
    rw [hsplit] at heach hchained
    obtain ⟨file, ref, hk, -, -, href, hpad, hstream, hpath⟩ :=
      (heach r (by simp)).reads n hn k stream hp
    refine ⟨file, ref, hk, List.mem_of_getElem? href, hpad, hstream, ?_⟩
    intro state hstate
    rcases List.mem_cons.1 hstate with rfl | hlater
    · exact hpath
    · have hbefore : r.after <+: state.before :=
        List.rel_of_pairwise_cons (List.pairwise_append.1 hchained).2.1 hlater
      have hgrows : state.before <+: state.after := (heach state (by simp [hlater])).grows
      obtain ⟨added, hadded⟩ := hbefore.trans hgrows
      rw [← hadded, List.getElem?_append_left (List.getElem?_eq_some_iff.1 hpath).1, hpath]
  · rw [List.Nodup, List.pairwise_flatMap]
    refine ⟨fun r hr => (heach r hr).nodup_files, hchained.imp_of_mem ?_⟩
    intro r r' hr hr' hbefore k hk k' hk'
    obtain ⟨file, rfl, -, hlt⟩ := (heach r hr).mem_files hk
    obtain ⟨file', rfl, hle, -⟩ := (heach r' hr').mem_files hk'
    have hlength := hbefore.length_le
    omega

end Session

end Storyboard
