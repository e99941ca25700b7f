import Storyboard.Proofs.Compile.Step
import Storyboard.Proofs.Spec.Timeline
import Storyboard.Proofs.Value.Writable

/-!
# Storyboard.Proofs.Compile.Offsets

Where the joints of scenes start.  The running length of the joined scenes is, at every joint,
the start of the next scene and the transition before it, so the offset that is written is that
start, held at zero.  The running length itself is not held: once a start was, the stream that is
joined on ends later than the running length says, and the next joint starts too early for it.

* `Transition.joints_eq`, `Transition.chain_eq` — the joints of scenes, one by one;
* `Transition.chain_offsets` — how an offset and the stream that it is in hang together.
-/

namespace Storyboard

open Number Decimal Numeral Build

/-! ## the pads that scenes leave by -/

namespace Scene

variable {scene : Scene} {base : String} {i j : Int} {s s' : Inputs} {nodes : List Node}
  {out : Pad}

/-- The pad of the last of some layers, from number `j` on, that are laid over `under`. -/
def lastPad (i j : Int) (under : Pad) : List Layer → Pad
  | [] => under
  | _ :: rest => .layer i (j + rest.length)

/-- The pad that scene `i` leaves by: that of its last layer, or else of its background. -/
def pad (scene : Scene) (i : Int) : Pad := lastPad i 0 (.background i) scene.layers

theorem lastPad_cons {under : Pad} {layer : Layer} {rest : List Layer} :
    lastPad i j under (layer :: rest) = lastPad i (j + 1) (.layer i j) rest := by
  cases rest with
  | nil => simp [lastPad]
  | cons layer rest =>
    simp only [lastPad, List.length_cons, Nat.cast_add, Nat.cast_one]
    congr 1
    omega

theorem layersNodes_pad {under : Pad} {layers : List Layer}
    (h : Gives (layersNodes base scene i j under layers) s (nodes, out) s') :
    out = lastPad i j under layers := by
  induction layers generalizing j under s nodes with
  | nil => exact (gives_layersNodes_nil.1 h).2.1
  | cons layer rest ih =>
    obtain ⟨first, t, more, -, hmore, -⟩ := gives_layersNodes_cons.1 h
    rw [lastPad_cons]
    exact ih hmore

theorem compile_pad {output : Output} (h : Gives (compile output base scene i) s (nodes, out) s') :
    out = scene.pad i := by
  obtain ⟨background, t, more, hbackground, hmore, -⟩ := gives_scene.1 h
  have houtput : background.output = .background i := by cases hbackground <;> rfl
  rw [houtput] at hmore
  exact layersNodes_pad hmore

end Scene

/-- Each scene leaves by its own pad. -/
theorem Specification.compileScenes_pads {output : Output} {base : String} {i : Int}
    {scenes : List Scene} {s s' : Inputs} {nodes : List Node} {pads : List Pad}
    (h : Gives (compileScenes output base i scenes) s (nodes, pads) s') :
    pads = scenes.mapIdx fun k scene => scene.pad (i + k) := by
  induction scenes generalizing i s nodes pads with
  | nil => exact (gives_compileScenes_nil.1 h).2.1
  | cons scene rest ih =>
    obtain ⟨first, pad, t, more, others, hfirst, hmore, -, rfl⟩ := gives_compileScenes_cons.1 h
    rw [List.mapIdx_cons, Scene.compile_pad hfirst, ih hmore]
    simp only [Nat.cast_zero, add_zero, Nat.cast_add, Nat.cast_one, add_assoc, add_comm (1 : Int)]

/-! ## offsets -/

namespace Scene

variable {scenes : List Scene} {k : Nat}

/-- The offset of the joint that scene `k` is laid on by; the first scene is on from zero. -/
def offsetAt (scenes : List Scene) (k : Nat) : ℚ := max 0 (startAt scenes k)

/-- How long the stream is that has the scenes up to and with scene `k`: the scene that is laid
over it last starts at its offset, and the stream ends with that scene. -/
def joinedLength (scenes : List Scene) (k : Nat) : ℚ :=
  offsetAt scenes k + (scenes[k]?.elim 0 length)

/-- What is left of the joined stream when the transition out of scene `k` begins, if that ends
with the stream: the next start, and what the offset of scene `k` was held back by. -/
theorem joinedLength_sub_overlap {s : Scene} (hs : scenes[k]? = some s) :
    joinedLength scenes k - s.overlap
      = startAt scenes (k + 1) + (offsetAt scenes k - startAt scenes k) := by
  rw [joinedLength, startAt_succ hs, hs, Option.elim_some]
  ring

theorem offsetAt_succ_le {s : Scene} (hs : scenes[k]? = some s) :
    offsetAt scenes (k + 1) ≤ max 0 (joinedLength scenes k - s.overlap) := by
  have hheld : startAt scenes k ≤ offsetAt scenes k := le_max_right _ _
  rw [joinedLength_sub_overlap hs]
  exact max_le_max_left 0 (by linarith)

/-- An offset is where the joined stream has its transition left, unless an offset before it was
held at zero; it is then too early, but for a scene that is on no longer than its transition. -/
theorem offsetAt_succ_eq_iff {s : Scene} (hs : scenes[k]? = some s) :
    offsetAt scenes (k + 1) = max 0 (joinedLength scenes k - s.overlap) ↔
      0 ≤ startAt scenes k ∨ s.length ≤ s.overlap := by
  rw [joinedLength_sub_overlap hs, offsetAt, offsetAt, startAt_succ hs]
  by_cases hstart : 0 ≤ startAt scenes k
  · simp only [max_eq_right hstart, sub_self, add_zero, hstart, true_or]
  · have hlate : startAt scenes k < 0 := not_le.1 hstart
    rw [max_eq_left hlate.le, zero_sub, add_neg_cancel_comm]
    constructor
    · intro heq
      refine .inr (not_lt.1 fun hlong => ?_)
      have hpos : 0 < s.length - s.overlap := sub_pos.2 hlong
      rw [max_eq_right hpos.le] at heq
      exact absurd heq (max_lt hpos (by linarith)).ne
    · rintro (h | hshort)
      · exact absurd h hstart
      · rw [max_eq_left (sub_nonpos.2 hshort), max_eq_left (by linarith)]

end Scene

namespace Transition

open Scene

/-- The joint with number `k` lays `pad` over `joined`, `offset` seconds after that began.  Its
effect and duration are those of the transition of the scene `last`. -/
def IsJoint (n : Node) (joined pad : Pad) (last : Scene) (offset : ℚ) (k : Int) : Prop :=
  ∃ duration start : String,
    n = ⟨[joined, pad], [.call "xfade" [.named "transition" (effect last.transition.type),
      .named "duration" duration, .named "offset" start]], .transition k⟩ ∧
    Denotes duration last.overlap ∧ Denotes start offset

/-- A joint has one offset. -/
theorem IsJoint.offset_unique {n : Node} {joined joined' pad pad' : Pad} {last last' : Scene}
    {p q : ℚ} {k k' : Int} (h : IsJoint n joined pad last p k)
    (h' : IsJoint n joined' pad' last' q k') : p = q := by
  obtain ⟨duration, start, rfl, -, hp⟩ := h
  obtain ⟨duration', start', hn, -, hq⟩ := h'
  have hstart : start = start' := by
    simp only [FilterOption.named, Node.mk.injEq, List.cons.injEq, Filter.call.injEq,
      FilterOption.mk.injEq] at hn
    tauto
  exact hp.unique (hstart ▸ hq)

/-- The joints of scenes, from number `k` on: the first is laid over what was joined before, and
every other one over the joint before it, where the next scene starts after `q`. -/
def AreJoints (nodes : List Node) (scenes : List Scene) (joined : Pad) (pads : List Pad) (q : ℚ)
    (k : Int) : Prop :=
  nodes.length = pads.length ∧
    ∀ (j : Nat) (prev : Scene) (pad : Pad), scenes[j]? = some prev → pads[j]? = some pad →
      ∃ n, nodes[j]? = some n ∧
        IsJoint n (if j = 0 then joined else .transition (k + j - 1)) pad prev
          (max 0 (q + startAt scenes (j + 1))) (k + j)

theorem AreJoints.nil {scenes : List Scene} {joined : Pad} {q : ℚ} {k : Int} :
    AreJoints [] scenes joined [] q k :=
  ⟨rfl, fun _ _ _ _ hpad => by simp at hpad⟩

/-- A joint before others, which are laid over it, and start after it. -/
theorem AreJoints.cons {n : Node} {nodes : List Node} {last : Scene} {scenes : List Scene}
    {joined pad : Pad} {pads : List Pad} {q : ℚ} {k : Int}
    (hfirst : IsJoint n joined pad last (max 0 (q + (last.length - last.overlap))) k)
    (h : AreJoints nodes scenes (.transition k) pads (q + (last.length - last.overlap)) (k + 1)) :
    AreJoints (n :: nodes) (last :: scenes) joined (pad :: pads) q k := by
  obtain ⟨hcount, hjoint⟩ := h
  refine ⟨congrArg Nat.succ hcount, fun j prev pad' hprev hpad => ?_⟩
  cases j with
  | zero =>
    obtain rfl : last = prev := Option.some.inj hprev
    obtain rfl : pad = pad' := Option.some.inj hpad
    rw [startAt_cons_succ, startAt_zero, add_zero, if_pos rfl, Nat.cast_zero, add_zero]
    exact ⟨n, rfl, hfirst⟩
  | succ j =>
    obtain ⟨m, hm, hjoint⟩ := hjoint j prev pad' hprev hpad
    have hnumber : k + ((j + 1 : Nat) : Int) = k + 1 + j := by omega
    have hbefore : (if j = 0 then .transition k else .transition (k + 1 + j - 1) : Pad)
        = .transition (k + 1 + j - 1) := by
      split
      · next hj => simp [hj]
      · rfl
    rw [hbefore] at hjoint
    rw [startAt_cons_succ, ← add_assoc, hnumber, if_neg (Nat.succ_ne_zero j)]
    exact ⟨m, hm, hjoint⟩

/-- The joints of scenes are made, where each scene starts. -/
theorem joints_eq {last : Scene} {joined : Pad} {running : Decimal} {k : Int}
    {rest : List (Scene × Pad)} {q : ℚ} (hfits : Fits q (last :: rest.map Prod.fst))
    (hrunning : running.toRat? = some (q + last.length)) :
    ∃ nodes out, joints last joined running k rest = .ok (nodes, out) ∧
      AreJoints nodes (last :: rest.map Prod.fst) joined (rest.map Prod.snd) q k := by
  induction rest generalizing last joined running k q with
  | nil => exact ⟨[], joined, rfl, .nil⟩
  | cons p rest ih =>
    obtain ⟨scene, pad⟩ := p
    have hnext := hfits.next
    obtain ⟨duration, hduration, hduration'⟩ := hfits.head.transition.decimal
    obtain ⟨length, hlength, hlength'⟩ := hnext.head.duration.decimal
    obtain ⟨left, hleft, hleft'⟩ := hfits.sub_overlap hrunning hduration'
    obtain ⟨offset, hoffset, hoffset'⟩ := greater_eq toRat?_zero hleft'
    obtain ⟨longer, hlonger, hlonger'⟩ := hfits.nextLength.add_length hrunning hlength'
    obtain ⟨after, hafter, hafter'⟩ := hfits.sub_next hlonger' hduration'
    obtain ⟨nodes, out, hnodes, hjoints⟩ := ih (k := k + 1) hnext hafter'
    have hlasting : |last.overlap| < 10 ^ 20 := by
      rw [abs_of_nonneg hfits.head.overlap_nonneg]
      exact hfits.overlap_lt
    have hfrom : |max 0 (q + (last.length - last.overlap))| < 10 ^ 20 := by
      have hspan := span_nonneg hnext.timed
      have hsmall := hnext.small
      refine abs_max_le_max_abs_abs.trans_lt (max_lt (by norm_num) ?_)
      linarith
    refine ⟨_, out, joints_cons_eq_ok.2 ⟨_, _, _, _, _, _, nodes, hduration, hleft, hoffset,
      ⟨isWritable_of_toRat? hduration' hlasting (by decide),
        isWritable_of_toRat? hoffset' hfrom (by decide)⟩,
      hlength, hlonger, hafter, hnodes, rfl⟩, .cons ⟨_, _, rfl, ?_, ?_⟩ hjoints⟩
    · exact denotes_shortText hduration' hfits.head.overlap
    · exact denotes_shortText hoffset' (IsMicro.zero.max hnext.micro)

/-- The joints of all scenes: joint `k + 1` lays scene `k + 1` over the scenes up to scene `k`. -/
theorem chain_eq {scenes : List Scene} {pads : List Pad} (hne : scenes ≠ [])
    (hfits : Fits 0 scenes) (hpads : pads.length = scenes.length) :
    ∃ nodes out, chain scenes pads = .ok (nodes, out) ∧ nodes.length + 1 = scenes.length ∧
      ∀ (k : Nat) (prev : Scene) (first pad : Pad), scenes[k]? = some prev →
        pads[0]? = some first → pads[k + 1]? = some pad → ∃ n, nodes[k]? = some n ∧
          IsJoint n (if k = 0 then first else .transition k) pad prev
            (offsetAt scenes (k + 1)) (k + 1) := by
  cases scenes with
  | nil => exact absurd rfl hne
  | cons scene rest =>
    cases pads with
    | nil => cases hpads
    | cons pad pads =>
      have hlength : pads.length = rest.length := Nat.succ.inj hpads
      have hscenes : (rest.zip pads).map Prod.fst = rest := List.map_fst_zip hlength.ge
      have hothers : (rest.zip pads).map Prod.snd = pads := List.map_snd_zip hlength.le
      obtain ⟨running, hrunning, hrunning'⟩ := hfits.head.duration.decimal
      rw [← hscenes] at hfits
      obtain ⟨nodes, out, hjoints, hcount, hjoint⟩ :=
        @joints_eq scene pad running 1 (rest.zip pads) 0 hfits (by rw [hrunning', zero_add]; rfl)
      rw [hothers] at hcount hjoint
      rw [hscenes] at hjoint
      refine ⟨nodes, out, ?_, ?_, fun k prev first pad' hprev hfirst hpad' => ?_⟩
      · rw [chain_cons_of_eq_ok hlength hrunning, hjoints]
      · rw [hcount, hlength, List.length_cons]
      · obtain rfl : pad = first := Option.some.inj hfirst
        obtain ⟨n, hn, hjoint⟩ := hjoint k prev pad' hprev hpad'
        rw [zero_add, add_comm (1 : Int), add_sub_cancel_right] at hjoint
        exact ⟨n, hn, hjoint⟩

/-- Every joint of the scenes of a document starts where its scene does, but not before zero.  So
it never starts later than its transition before the end of the stream that it is laid over, and
it starts right then, unless a scene before it was to start before zero and the scene that gives
way is on longer than its transition. -/
theorem chain_offsets {data : Value} {spec : Specification} {pads : List Pad}
    (hdata : Specification.ofValue data = .ok spec) (htimes : HasExactTimes spec.scenes)
    (hpads : pads.length = spec.scenes.length) :
    ∃ nodes out, chain spec.scenes pads = .ok (nodes, out) ∧
      nodes.length + 1 = spec.scenes.length ∧
      ∀ (k : Nat) (prev : Scene) (first pad : Pad), spec.scenes[k]? = some prev →
        pads[0]? = some first → pads[k + 1]? = some pad → ∃ n, nodes[k]? = some n ∧
          IsJoint n (if k = 0 then first else .transition k) pad prev
            (offsetAt spec.scenes (k + 1)) (k + 1) ∧
          offsetAt spec.scenes (k + 1) ≤ max 0 (joinedLength spec.scenes k - prev.overlap) ∧
          (offsetAt spec.scenes (k + 1) = max 0 (joinedLength spec.scenes k - prev.overlap) ↔
            0 ≤ startAt spec.scenes k ∨ prev.length ≤ prev.overlap) := by
  have haccepted := Specification.accepted_of_ofValue hdata
  obtain ⟨nodes, out, hchain, hcount, hjoint⟩ :=
    chain_eq haccepted.scenes (htimes.fits haccepted.scene) hpads
  refine ⟨nodes, out, hchain, hcount, fun k prev first pad hprev hfirst hpad => ?_⟩
  obtain ⟨n, hn, hn'⟩ := hjoint k prev first pad hprev hfirst hpad
  exact ⟨n, hn, hn', offsetAt_succ_le hprev, offsetAt_succ_eq_iff hprev⟩

/-- Three scenes, of which the first is over before its transition is. -/
def hurriedScenes : List Scene :=
  [{ id := "dawn", duration := 1, transition := { duration := 2 } },
    { id := "noon", duration := 3, transition := { duration := 1 } },
    { id := "dusk", duration := 4, transition := { duration := 1 } }]

/-- The document of these scenes. -/
def hurriedFilm : Value :=
  .map [("scenes", .list (hurriedScenes.map fun s =>
    .map [("id", s.id), ("duration", s.duration),
      ("transition", .map [("duration", s.transition.duration)])]))]

theorem ofValue_hurriedFilm :
    Specification.ofValue hurriedFilm = .ok { scenes := hurriedScenes } := rfl

/-- The pads that these scenes leave by: they have no layers. -/
def hurriedPads : List Pad := [.background 0, .background 1, .background 2]

theorem hasExactTimes_hurriedScenes : HasExactTimes hurriedScenes where
  length := by simp [hurriedScenes]
  overlap := by simp [hurriedScenes]
  small := by norm_num [hurriedScenes, Scene.length, overlap]

theorem chain_offsets_hurriedFilm :
    Specification.ofValue hurriedFilm = .ok { scenes := hurriedScenes } ∧
      HasExactTimes hurriedScenes ∧
      ∃ nodes out n, chain hurriedScenes hurriedPads = .ok (nodes, out) ∧ nodes[1]? = some n ∧
        IsJoint n (.transition 1) (.background 2) hurriedScenes[1] 1 2 := by
  have hpads : hurriedPads.length = hurriedScenes.length := rfl
  obtain ⟨nodes, out, hchain, -, hjoint⟩ :=
    chain_offsets ofValue_hurriedFilm hasExactTimes_hurriedScenes hpads
  obtain ⟨n, hn, hn', -⟩ := hjoint 1 _ _ _ rfl rfl rfl
  have hoffset : offsetAt hurriedScenes 2 = 1 := by
    norm_num [hurriedScenes, offsetAt, Scene.length, overlap]
  refine ⟨ofValue_hurriedFilm, hasExactTimes_hurriedScenes, nodes, out, n, hchain, hn, ?_⟩
  rw [← hoffset]
  exact hn'

/-- The first of these joints is held at zero, so the stream that it makes ends at three seconds;
the second one starts at one, and not at two, where its transition of one second has to start. -/
theorem chain_hurriedFilm_early :
    Specification.ofValue hurriedFilm = .ok { scenes := hurriedScenes } ∧
      HasExactTimes hurriedScenes ∧
      ∃ nodes out n m, chain hurriedScenes hurriedPads = .ok (nodes, out) ∧
        nodes[0]? = some n ∧ nodes[1]? = some m ∧
        IsJoint n (.background 0) (.background 1) hurriedScenes[0] 0 1 ∧
        IsJoint m (.transition 1) (.background 2) hurriedScenes[1] 1 2 ∧
        ¬ IsJoint m (.transition 1) (.background 2) hurriedScenes[1]
          (max 0 (0 + hurriedScenes[1].length - hurriedScenes[1].overlap)) 2 := by
  have hfits : Fits 0 hurriedScenes :=
    hasExactTimes_hurriedScenes.fits (Specification.accepted_of_ofValue ofValue_hurriedFilm).scene
  have hne : hurriedScenes ≠ [] := List.cons_ne_nil _ _
  have hpads : hurriedPads.length = hurriedScenes.length := rfl
  obtain ⟨nodes, out, hchain, -, hjoint⟩ := chain_eq hne hfits hpads
  obtain ⟨n, hn, hn'⟩ := hjoint 0 _ _ _ rfl rfl rfl
  obtain ⟨m, hm, hm'⟩ := hjoint 1 _ _ _ rfl rfl rfl
  have hfirst : offsetAt hurriedScenes 1 = 0 := by
    norm_num [hurriedScenes, offsetAt, Scene.length, overlap]
  have hsecond : offsetAt hurriedScenes 2 = 1 := by
    norm_num [hurriedScenes, offsetAt, Scene.length, overlap]
  rw [zero_add, hfirst] at hn'
  rw [hsecond] at hm'
  refine ⟨ofValue_hurriedFilm, hasExactTimes_hurriedScenes, nodes, out, n, m, hchain, hn, hm, hn',
    hm', fun hlate => ?_⟩
  have heq := hm'.offset_unique hlate
  norm_num [hurriedScenes, Scene.length, overlap] at heq

end Transition

end Storyboard
