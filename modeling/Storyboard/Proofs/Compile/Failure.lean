import Storyboard.Proofs.Compile.Offsets
import Storyboard.Proofs.Compile.Total

/-!
# Storyboard.Proofs.Compile.Failure

When a specification has no graph.  A step fails if what it is about has something amiss, and
then it says what; otherwise it gives its statements.  Steps that are put together fail exactly if
something is amiss with one of them, so the whole compilation fails exactly where the list of
what can be amiss, `Specification.IsFaulty`, says so.  There is one more way to fail: a rate
whose digits are too many to be written.

* `Build.FailsIff.bind` — one step after another;
* `Specification.failsIff_build` — all statements of a specification;
* `Specification.compile_outcome` — the three outcomes of a compilation.
-/

namespace Storyboard

open Build

/-! ## what can be amiss -/

/-- A background that cannot be drawn: of no known kind, without a color or without a source. -/
def Background.IsFaulty : Background → Prop
  | .color _ => False
  | .gradient colors _ => colors = []
  | .image src => src = ""
  | .video src _ => src = ""
  | .other _ _ => True

/-- A layer that cannot be laid over a scene: of no known kind, or without a source. -/
def Layer.IsFaulty : Layer → Prop
  | .text _ => False
  | .image l => l.src = ""
  | .video l => l.src = ""
  | .shape _ => False
  | .other _ _ => True

def Scene.IsFaulty (s : Scene) : Prop := s.background.IsFaulty ∨ ∃ l ∈ s.layers, l.IsFaulty

/-- A specification that has no graph: there is no scene, or a part of one cannot be drawn, or a
track is without a source. -/
def Specification.IsFaulty (spec : Specification) : Prop :=
  spec.scenes = [] ∨ (∃ s ∈ spec.scenes, s.IsFaulty) ∨ ∃ t ∈ spec.audio.tracks, t.src = ""

theorem Background.Accepted.not_isFaulty {b : Background} (h : b.Accepted) : ¬ b.IsFaulty := by
  cases h with
  | color hcolor => exact id
  | image hsrc => exact hsrc
  | video hsrc htrim => exact hsrc
  | gradient hlength hcolors hdirection =>
    rintro rfl
    exact absurd hlength (by decide)

theorem Layer.Accepted.not_isFaulty {l : Layer} (h : l.Accepted) : ¬ l.IsFaulty := by
  cases h with
  | text h => exact id
  | image h => exact h.src
  | video h => exact h.src
  | shape h => exact id

/-! ## how a step fails -/

namespace Build

variable {α β : Type} {p q : Prop} {s s' : Inputs} {e : Fault}

/-- A step that is started with the inputs `s` fails. -/
def Fails (x : Build α) (s : Inputs) (e : Fault) : Prop := (x.run.run s).1 = .error e

theorem fails_lift {e : Fault} : Fails (liftM (.error e : Except Fault α)) s e := rfl

theorem Fails.bind {x : Build α} (h : Fails x s e) (f : α → Build β) : Fails (x >>= f) s e := by
  rw [Fails] at h
  simp only [Fails, ExceptT.run_bind, StateT.run_bind]
  rcases hx : x.run.run s with ⟨_ | a, t⟩
  · rw [hx] at h
    obtain rfl := Except.error.inj h
    rfl
  · rw [hx] at h
    cases h

theorem Gives.bind_fails {x : Build α} {a : α} {f : α → Build β} (hx : Gives x s a s')
    (h : Fails (f a) s' e) : Fails (x >>= f) s e := by
  simp only [Fails, ExceptT.run_bind, StateT.run_bind]
  rw [hx]
  exact h

/-- A step fails exactly if something is amiss, whatever the inputs, and it says what. -/
def FailsIff (x : Build α) (amiss : Prop) : Prop :=
  ∀ s, (amiss → ∃ why, Fails x s (.inconsistent why)) ∧ (¬ amiss → ∃ a s', Gives x s a s')

theorem FailsIff.congr {x : Build α} (h : FailsIff x p) (hpq : p ↔ q) : FailsIff x q := by
  rwa [← propext hpq]

/-- One step after another fails exactly if something is amiss with one of them. -/
theorem FailsIff.bind {x : Build α} {f : α → Build β} (hx : FailsIff x p)
    (hf : ∀ a s s', Gives x s a s' → FailsIff (f a) q) : FailsIff (x >>= f) (p ∨ q) := by
  intro s
  by_cases hp : p
  · obtain ⟨why, hwhy⟩ := (hx s).1 hp
    exact ⟨fun _ => ⟨why, hwhy.bind f⟩, fun hnot => absurd (.inl hp) hnot⟩
  · obtain ⟨a, s', ha⟩ := (hx s).2 hp
    constructor
    · rintro (hp' | hq)
      · exact absurd hp' hp
      · obtain ⟨why, hwhy⟩ := (hf a s s' ha s').1 hq
        exact ⟨why, ha.bind_fails hwhy⟩
    · intro hnot
      obtain ⟨b, t, hb⟩ := (hf a s s' ha s').2 fun hq => hnot (.inr hq)
      exact ⟨b, t, gives_bind.2 ⟨a, s', ha, hb⟩⟩

theorem failsIff_pure (a : α) : FailsIff (pure a : Build α) False :=
  fun s => ⟨False.elim, fun _ => ⟨a, s, gives_pure.2 ⟨rfl, rfl⟩⟩⟩

theorem failsIff_throw (why : Inconsistency) :
    FailsIff (throw (.inconsistent why) : Build α) True :=
  fun _ => ⟨fun _ => ⟨why, rfl⟩, fun h => absurd trivial h⟩

/-- A computation that succeeds leaves it to the next step. -/
theorem failsIff_ok_bind {x : Except Fault α} {f : α → Build β} {a : α} (hx : x = .ok a)
    (hf : FailsIff (f a) p) : FailsIff (liftM x >>= f) p := by
  rw [hx]
  exact hf

theorem failsIff_lift_bind {x : Except Fault α} {f : α → Build β} (hx : ∃ a, x = .ok a)
    (hf : ∀ a, FailsIff (f a) p) : FailsIff (liftM x >>= f) p := by
  obtain ⟨a, ha⟩ := hx
  exact failsIff_ok_bind ha (hf a)

theorem failsIff_lift {x : Except Fault α} (hx : ∃ a, x = .ok a) :
    FailsIff (liftM x : Build α) False := by
  obtain ⟨a, rfl⟩ := hx
  exact failsIff_pure a

theorem failsIff_register (src : String) : FailsIff (Inputs.register src) (src = "") := by
  intro s
  constructor
  · rintro rfl
    exact ⟨.sourceMissing, congrArg Prod.fst (Inputs.register_empty s)⟩
  · intro hsrc
    exact ⟨_, _, gives_register.2 ⟨hsrc, rfl, rfl⟩⟩

/-- A registration fails without a source, and else leaves it to the next step. -/
theorem failsIff_register_bind {src : String} {f : Nat → Build β} (hf : ∀ k, FailsIff (f k) False) :
    FailsIff (Inputs.register src >>= f) (src = "") :=
  ((failsIff_register src).bind fun k _ _ _ => hf k).congr (iff_of_eq (or_false _))

end Build

/-! ## scenes -/

namespace Scene

variable {output : Output} {scene : Scene} {base : String} {i j : Int} {under : Pad}

theorem failsIff_backgroundNode (houtput : output.InBounds) (hrate : output.fps.IsWritable)
    (hscene : scene.InBounds) :
    FailsIff (backgroundNode output scene i) scene.background.IsFaulty := by
  refine failsIff_lift_bind (houtput.toRate hrate) fun toRate => ?_
  have hbackground := hscene.background
  cases hb : scene.background with
  | color value =>
    exact failsIff_lift_bind (houtput.plainColor hrate hscene.duration _) fun _ => failsIff_pure _
  | gradient colors direction =>
    cases colors with
    | nil => exact (failsIff_throw _).congr (by simp [Background.IsFaulty])
    | cons color more =>
      exact (failsIff_lift_bind (houtput.plainColor hrate hscene.duration _)
        fun _ => failsIff_pure _).congr (by simp [Background.IsFaulty])
  | image src =>
    exact failsIff_register_bind fun k => failsIff_lift_bind houtput.letterbox fun _ =>
      failsIff_lift_bind (hscene.duration.option _) fun _ => failsIff_pure _
  | video src trim =>
    rw [hb] at hbackground
    obtain ⟨start, hstart, hstart'⟩ := hbackground.start.toDecimal
    obtain ⟨length, stop, hlength, hstop, hstop'⟩ := hscene.duration.stop hstart'
    exact failsIff_register_bind fun k => failsIff_ok_bind hstart <| failsIff_ok_bind hlength <|
      failsIff_ok_bind hstop <| failsIff_ok_bind (hstart'.written (by decide)) <|
      failsIff_ok_bind (hstop'.written (by decide)) <|
      failsIff_lift_bind houtput.letterbox fun _ => failsIff_pure _
  | other kind form => exact failsIff_throw _

theorem failsIff_layerNodes {layer : Layer} (hscene : scene.InBounds) (hlayer : layer.InBounds) :
    FailsIff (layerNodes base scene i j layer under) layer.IsFaulty := by
  cases layer with
  | text l =>
    exact failsIff_lift_bind (TextLayer.InBounds.filter hlayer base) fun _ => failsIff_pure _
  | image l =>
    have hl : ImageLayer.InBounds l := hlayer
    exact failsIff_register_bind fun k => failsIff_lift_bind (imageFilters_succeeds hl) fun _ =>
      failsIff_lift (overlayNodes_succeeds hl.position hl.window)
  | video l =>
    have hl : VideoLayer.InBounds l := hlayer
    exact failsIff_register_bind fun k =>
      failsIff_lift_bind (clipFilters_succeeds hl hscene.duration) fun _ =>
        failsIff_lift (overlayNodes_succeeds hl.position hl.window)
  | shape l => exact failsIff_lift_bind (ShapeLayer.InBounds.filter hlayer) fun _ => failsIff_pure _
  | other kind form => exact failsIff_throw _

theorem failsIff_layersNodes {layers : List Layer} (hscene : scene.InBounds)
    (hlayers : ∀ l ∈ layers, l.InBounds) :
    FailsIff (layersNodes base scene i j under layers) (∃ l ∈ layers, l.IsFaulty) := by
  induction layers generalizing j under with
  | nil => exact (failsIff_pure _).congr (by simp)
  | cons layer rest ih =>
    rw [List.forall_mem_cons] at hlayers
    refine ((failsIff_layerNodes hscene hlayers.1).bind fun nodes _ _ _ =>
      (ih hlayers.2).bind fun r _ _ _ => failsIff_pure _).congr ?_
    simp

theorem failsIff_compile (houtput : output.InBounds) (hrate : output.fps.IsWritable)
    (hscene : scene.InBounds) : FailsIff (compile output base scene i) scene.IsFaulty := by
  refine ((failsIff_backgroundNode houtput hrate hscene).bind fun background _ _ _ =>
    (failsIff_layersNodes hscene hscene.layers).bind fun r _ _ _ => failsIff_pure _).congr ?_
  rw [or_false, IsFaulty]

end Scene

/-! ## tracks -/

namespace AudioTrack

variable {anchor : Anchor} {tracks : List AudioTrack} {i : Int}

theorem failsIff_compileAll (htracks : ∀ t ∈ tracks, t.InBounds) :
    FailsIff (compileAll anchor i tracks) (∃ t ∈ tracks, t.src = "") := by
  induction tracks generalizing i with
  | nil => exact (failsIff_pure _).congr (by simp)
  | cons track rest ih =>
    rw [List.forall_mem_cons] at htracks
    have htrack : FailsIff (compile anchor track i) (track.src = "") :=
      failsIff_register_bind fun k => failsIff_lift_bind (htracks.1.filters anchor) fun _ =>
        failsIff_pure _
    refine (htrack.bind fun node _ _ _ => (ih htracks.2).bind fun more _ _ _ =>
      failsIff_pure _).congr ?_
    simp

theorem failsIff_mix {sampleRate : Value} (hrate : sampleRate.InBounds)
    (htracks : ∀ t ∈ tracks, t.InBounds) :
    FailsIff (mix anchor sampleRate tracks) (∃ t ∈ tracks, t.src = "") := by
  refine ((failsIff_compileAll htracks).bind fun nodes _ _ _ => ?_).congr (iff_of_eq (or_false _))
  split
  · exact failsIff_lift_bind (silence_succeeds hrate) fun _ => failsIff_pure _
  · exact failsIff_pure _
  · exact failsIff_pure _

end AudioTrack

/-! ## a whole specification -/

namespace Specification

variable {spec : Specification} {base anchor : String}

theorem failsIff_compileScenes {output : Output} {scenes : List Scene} {i : Int}
    (houtput : output.InBounds) (hrate : output.fps.IsWritable)
    (hscenes : ∀ s ∈ scenes, s.InBounds) :
    FailsIff (compileScenes output base i scenes) (∃ s ∈ scenes, s.IsFaulty) := by
  induction scenes generalizing i with
  | nil => exact (failsIff_pure _).congr (by simp)
  | cons scene rest ih =>
    rw [List.forall_mem_cons] at hscenes
    refine ((Scene.failsIff_compile houtput hrate hscenes.1).bind fun r _ _ _ =>
      (ih hscenes.2).bind fun more _ _ _ => failsIff_pure _).congr ?_
    simp

theorem failsIff_build (h : spec.InBounds) (hne : spec.scenes ≠ [])
    (hrate : spec.output.fps.IsWritable) (hanchor : ∃ mode, Anchor.ofName anchor = .ok mode) :
    FailsIff (spec.build base anchor)
      ((∃ s ∈ spec.scenes, s.IsFaulty) ∨ ∃ t ∈ spec.audio.tracks, t.src = "") := by
  refine (failsIff_compileScenes h.output hrate h.scenes).bind fun (nodes, pads) s s' hscenes => ?_
  have hpads : pads.length = spec.scenes.length := by
    rw [compileScenes_pads hscenes, List.length_mapIdx]
  refine failsIff_lift_bind (Transition.chain_succeeds hne h.scenes hpads) fun r => ?_
  refine failsIff_lift_bind hanchor fun mode => ?_
  exact ((AudioTrack.failsIff_mix h.output.sampleRate h.tracks).bind fun r _ _ _ =>
    failsIff_pure _).congr (iff_of_eq (or_false _))

theorem compile_of_nil (h : spec.scenes = []) :
    spec.compile base anchor = .error (.inconsistent .noScene) := by
  rw [compile, h]
  rfl

theorem compile_of_fails {e : Fault} (hne : spec.scenes ≠ [])
    (h : Fails (spec.build base anchor) ⟨base, []⟩ e) : spec.compile base anchor = .error e := by
  have hempty : spec.scenes.isEmpty = false := by simpa using hne
  rcases hrun : (spec.build base anchor).run.run ⟨base, []⟩ with ⟨result, t⟩
  obtain rfl : result = .error e := by
    rw [Fails, hrun] at h
    exact h
  simp only [compile, hempty, hrun]
  rfl

/-- A rate that cannot be written stops the first background. -/
theorem compile_of_not_isWritable (hne : spec.scenes ≠ []) (h : ¬ spec.output.fps.IsWritable) :
    spec.compile base anchor = .error .valueUnsuited := by
  refine compile_of_fails hne (Fails.bind ?_ _)
  cases hscenes : spec.scenes with
  | nil => exact absurd hscenes hne
  | cons scene rest =>
    refine ((Fails.bind ?_ _).bind _).bind _
    rw [Output.toRate_of_not_isWritable h]
    exact fails_lift

theorem compile_of_isFaulty (h : spec.InBounds) (hrate : spec.output.fps.IsWritable)
    (hanchor : ∃ mode, Anchor.ofName anchor = .ok mode) (hfaulty : spec.IsFaulty) :
    ∃ why, spec.compile base anchor = .error (.inconsistent why) := by
  rcases hfaulty with hnil | hfaulty
  · exact ⟨.noScene, compile_of_nil hnil⟩
  · by_cases hne : spec.scenes = []
    · exact ⟨.noScene, compile_of_nil hne⟩
    · obtain ⟨why, hwhy⟩ := (failsIff_build h hne hrate hanchor ⟨base, []⟩).1 hfaulty
      exact ⟨why, compile_of_fails hne hwhy⟩

/-- Where nothing is amiss there is a graph. -/
theorem exists_compile (h : spec.InBounds) (hrate : spec.output.fps.IsWritable)
    (hanchor : ∃ mode, Anchor.ofName anchor = .ok mode) (hfaulty : ¬ spec.IsFaulty) :
    ∃ g, spec.compile base anchor = .ok g := by
  rw [IsFaulty, not_or] at hfaulty
  obtain ⟨⟨nodes, video, audio⟩, s, hs⟩ :=
    (failsIff_build h hfaulty.1 hrate hanchor ⟨base, []⟩).2 hfaulty.2
  exact ⟨⟨s.paths, nodes, video, audio⟩, compile_eq_ok.2 ⟨hfaulty.1, s, hs, rfl⟩⟩

/-- Nothing is amiss with what was read from a document. -/
theorem Accepted.not_isFaulty (h : spec.Accepted) : ¬ spec.IsFaulty := by
  rintro (hnil | ⟨s, hs, hbackground | ⟨l, hl, hlayer⟩⟩ | ⟨t, ht, hsrc⟩)
  · exact h.scenes hnil
  · exact (h.scene s hs).background.not_isFaulty hbackground
  · exact ((h.scene s hs).layers l hl).not_isFaulty hlayer
  · exact (h.audio.tracks t ht).src hsrc

/-- A specification in bounds has a graph if nothing is amiss and its rate can be written; a rate
that cannot be written is an unsuited value, and else it is said what is amiss.  What was read from
a document has a graph if its numbers are of ordinary size and its rate can be written. -/
theorem compile_outcome (hanchor : anchor = "start" ∨ anchor = "end") :
    (spec.InBounds →
      ((∃ why, spec.compile base anchor = .error (.inconsistent why)) ↔
        spec.scenes = [] ∨ spec.output.fps.IsWritable ∧ spec.IsFaulty) ∧
      (spec.compile base anchor = .error .valueUnsuited ↔
        spec.scenes ≠ [] ∧ ¬ spec.output.fps.IsWritable) ∧
      ((∃ g, spec.compile base anchor = .ok g) ↔
        spec.output.fps.IsWritable ∧ ¬ spec.IsFaulty)) ∧
    ∀ data, ofValue data = .ok spec → (∀ v ∈ spec.values, v.IsOrdinary) →
      ((∃ g, spec.compile base anchor = .ok g) ↔ spec.output.fps.IsWritable) := by
  have hmode : ∃ mode, Anchor.ofName anchor = .ok mode := by
    rcases hanchor with rfl | rfl <;> exact ⟨_, rfl⟩
  constructor
  · intro h
    by_cases hnil : spec.scenes = []
    · have hfaulty : spec.IsFaulty := .inl hnil
      simp [compile_of_nil hnil, hnil, hfaulty]
    · by_cases hrate : spec.output.fps.IsWritable
      · by_cases hfaulty : spec.IsFaulty
        · obtain ⟨why, hwhy⟩ : ∃ why, spec.compile base anchor = .error (.inconsistent why) :=
            compile_of_isFaulty h hrate hmode hfaulty
          simp [hwhy, hnil, hrate, hfaulty]
        · obtain ⟨g, hg⟩ : ∃ g, spec.compile base anchor = .ok g :=
            exists_compile h hrate hmode hfaulty
          simp [hg, hnil, hrate, hfaulty]
      · simp [compile_of_not_isWritable hnil hrate, hnil, hrate]
  · intro data hdata hvalues
    have haccepted := accepted_of_ofValue hdata
    constructor
    · rintro ⟨g, hg⟩
      by_contra hrate
      rw [compile_of_not_isWritable haccepted.scenes hrate] at hg
      cases hg
    · intro hrate
      exact exists_compile (haccepted.inBounds hvalues) hrate hmode haccepted.not_isFaulty

/-- A document with one scene of one color, at a rate. -/
def plainFilm (rate : String) : Value :=
  .map [("scenes", .list [.map [("id", "sky"), ("duration", 1)]]),
    ("output", .map [("fps", .text rate)])]

/-- At a rate of 30000/1001 it has a graph. -/
theorem compile_outcome_plainFilm : ∃ spec g, ofValue (plainFilm "30000/1001") = .ok spec ∧
    (∀ v ∈ spec.values, v.IsOrdinary) ∧ spec.InBounds ∧ spec.output.fps.IsWritable ∧
    ¬ spec.IsFaulty ∧ spec.compile "/media" "end" = .ok g := by
  have htest : (ofValue (plainFilm "30000/1001")).toOption.any (fun spec =>
      (∀ v ∈ spec.values, v.IsOrdinary) ∧ spec.output.fps.IsWritable) = true := by
    decide +kernel
  obtain ⟨spec, hspec, htest⟩ := exists_of_any htest
  obtain ⟨hvalues, hrate⟩ := of_decide_eq_true htest
  have hbounds := (accepted_of_ofValue hspec).inBounds hvalues
  obtain ⟨hraw, hread⟩ := compile_outcome (Or.inr rfl)
  obtain ⟨g, hg⟩ := (hread _ hspec hvalues).2 hrate
  exact ⟨spec, g, hspec, hvalues, hbounds, hrate, ((hraw hbounds).2.2.1 ⟨g, hg⟩).2, hg⟩

/-- At a rate of one frame in `10 ^ 5000` seconds it is read, its numbers are of ordinary size and
nothing is amiss, but compiling it fails with an unsuited value. -/
theorem compile_plainFilm_tooSlow : ∃ spec, ofValue (plainFilm "1e-5000") = .ok spec ∧
    (∀ v ∈ spec.values, v.IsOrdinary) ∧ spec.InBounds ∧ ¬ spec.IsFaulty ∧
    spec.compile "/media" "end" = .error .valueUnsuited := by
  have htest : (ofValue (plainFilm "1e-5000")).toOption.any (fun spec =>
      (∀ v ∈ spec.values, v.IsOrdinary) ∧
      spec.compile "/media" "end" = .error .valueUnsuited) = true := by
    decide +kernel
  obtain ⟨spec, hspec, htest⟩ := exists_of_any htest
  obtain ⟨hvalues, hcompile⟩ := of_decide_eq_true htest
  have haccepted := accepted_of_ofValue hspec
  exact ⟨spec, hspec, hvalues, haccepted.inBounds hvalues, haccepted.not_isFaulty, hcompile⟩

end Specification

end Storyboard
