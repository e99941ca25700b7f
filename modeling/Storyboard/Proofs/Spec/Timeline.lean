import Mathlib.Algebra.BigOperators.Group.List.Basic
import Storyboard.Proofs.Number.Nearest
import Storyboard.Proofs.Spec.Sound
import Storyboard.Spec.Timeline

/-!
# Storyboard.Proofs.Spec.Timeline

When scenes start, as a sum of rational numbers.  Each scene starts as long after the one
before it as that lasts, less the transition between them; this closed form, `startAt`, is what
the walk over the scenes computes, whatever the number of scenes, as long as all times are
whole numbers of millionths and their sum is small enough for nothing to be rounded.

* `Scene.startFrom_eq`, `Scene.totalFrom_eq` — the two walks;
* `Specification.sceneStart_eq`, `Specification.totalDuration_eq` — the same of a specification;
* `Scene.sum_length_eq` — how the total and the start of the last scene hang together.
-/

namespace Storyboard

open Number Decimal Spec.Field

/-! ## times -/

namespace Value

/-- The number of seconds that a number stands for.  A floating-point number stands for the
decimal of its shortest text. -/
def seconds? : Value → Option ℚ
  | .int i => some i
  | .float x => x.toDecimal.toRat?
  | _ => none

/-- The same, where it is known that there is one. -/
def seconds (v : Value) : ℚ := v.seconds?.getD 0

/-- A number that stands for a whole number of millionths. -/
def InMillionths (v : Value) : Prop := ∃ q, v.seconds? = some q ∧ IsMicro q

@[simp] theorem seconds_ofNat (n : Nat) :
    seconds (no_index (OfNat.ofNat n)) = (OfNat.ofNat n : Nat) := rfl

@[simp] theorem inMillionths_ofNat (n : Nat) : InMillionths (no_index (OfNat.ofNat n)) :=
  ⟨n, rfl, n * 10 ^ 6, by norm_num⟩

/-- A floating-point number stands for the decimal of its shortest digits. -/
theorem seconds?_of_shortest {m c : Nat} {e e' : Int} (h : Double.Canonical m e) (hm : m ≠ 0)
    (hshort : Double.shortest m e = (c, e')) :
    seconds? (.float (.finite false m e h)) = (Double.ofShortest false c e').toRat? := by
  rw [seconds?, Double.toDecimal_of_shortest h hm hshort]

theorem seconds?_half : seconds? 0.5 = some (1 / 2) := by
  have hshort : Double.shortest 4503599627370496 (-53) = (5, -1) := by
    rw [@Double.shortest_of_firstPlace _ 339 _ (by decide +kernel) (by decide +kernel)]
    decide +kernel
  have hparts : (0.5 : Value) = .float (.finite false 4503599627370496 (-53) (by decide)) := by
    with_unfolding_all rfl
  rw [hparts, seconds?_of_shortest _ (by decide) hshort]
  decide +kernel

theorem seconds?_five_halves : seconds? 2.5 = some (5 / 2) := by
  have hshort : Double.shortest 5629499534213120 (-51) = (25, -1) := by
    rw [@Double.shortest_of_firstPlace _ 340 _ (by decide +kernel) (by decide +kernel)]
    decide +kernel
  have hparts : (2.5 : Value) = .float (.finite false 5629499534213120 (-51) (by decide)) := by
    with_unfolding_all rfl
  rw [hparts, seconds?_of_shortest _ (by decide) hshort]
  decide +kernel

theorem seconds_half : seconds 0.5 = 1 / 2 := by
  rw [seconds, seconds?_half, Option.getD_some]

theorem seconds_five_halves : seconds 2.5 = 5 / 2 := by
  rw [seconds, seconds?_five_halves, Option.getD_some]

/-- A value that is read as the time that it stands for, by itself and by its text. -/
structure IsTime (v : Value) : Prop where
  nonneg : 0 ≤ v.seconds
  decimal : ∃ d, v.toDecimal = .ok d ∧ d.toRat? = some v.seconds
  byText : v.seconds < 10 ^ 20 → ∃ d, v.toDecimalByText = .ok d ∧ d.toRat? = some v.seconds

variable {v : Value}

theorem toDecimalByText_of_plainText {s : String} (h : v.plainText = .ok s) :
    v.toDecimalByText = Decimal.read s := by
  simp only [toDecimalByText, h, bind, Except.bind]

theorem toDecimalByText_int {i : Int} (h : i.natAbs < tens digitLimit) :
    (Value.int i).toDecimalByText = .ok (.ofInt i) := by
  have hlimit : tens digitLimit ≤ tens 10000 := tens_le_tens (by decide)
  have htext : plainText (.int i) = .ok i.repr := by rw [plainText_int, integerText_of_short h]
  rw [toDecimalByText_of_plainText htext]
  exact Decimal.read_repr (h.trans_le hlimit)

theorem toDecimalByText_float {x : Double} (h : x.isFinite = true) :
    (Value.float x).toDecimalByText = .ok x.toDecimal :=
  (toDecimalByText_of_plainText rfl).trans (Double.read_text h)

theorem isTime_int {i : Int} (h : 0 < i) : IsTime (.int i) where
  nonneg := by
    have hcast : (0 : ℚ) ≤ i := by exact_mod_cast h.le
    exact hcast
  decimal := ⟨.ofInt i, rfl, toRat?_ofInt i⟩
  byText hsmall := by
    have hlt : i < 10 ^ 20 := by
      have hcast : (i : ℚ) < 10 ^ 20 := hsmall
      exact_mod_cast hcast
    have hshort : i.natAbs < tens digitLimit := by
      have hpow : tens 20 ≤ tens digitLimit := tens_le_tens (by decide)
      have htwenty : tens 20 = 10 ^ 20 := rfl
      omega
    exact ⟨.ofInt i, toDecimalByText_int hshort, toRat?_ofInt i⟩

theorem isTime_float {x : Double} {q : ℚ} (hx : x.toRat? = some q) (hq : 0 < q) :
    IsTime (.float x) := by
  cases x with
  | finite negative m e h =>
    obtain ⟨rfl, -⟩ := Double.sign_of_pos hx hq
    obtain ⟨c, e', hdecimal, -⟩ :
        ∃ c e', (Double.finite false m e h).toDecimal = .finite false c e' ∧
          Double.InReach c e' := Double.toDecimal_finite h
    have hrat : (Double.finite false m e h).toDecimal.toRat? = some ((c : ℚ) * 10 ^ e') := by
      rw [hdecimal, toRat?_finite]
      rfl
    have hseconds : seconds (.float (.finite false m e h)) = c * 10 ^ e' := by
      rw [seconds, seconds?, hrat, Option.getD_some]
    rw [← hseconds] at hrat
    exact ⟨by rw [hseconds]; positivity, ⟨_, rfl, hrat⟩,
      fun _ => ⟨_, toDecimalByText_float rfl, hrat⟩⟩
  | infinite negative => cases hx
  | nan => cases hx

theorem isFinite_of_seconds? {q : ℚ} (h : v.seconds? = some q) : v.isFinite = true := by
  cases v with
  | float x =>
    cases x with
    | finite negative m e h => rfl
    | infinite negative => cases h
    | nan => cases h
  | _ => rfl

/-- A number above zero that stands for a number of seconds is a time. -/
theorem isTime_of_inRange (h : InRange .aboveZero v) (hv : v.InMillionths) : v.IsTime := by
  obtain ⟨q, hq, -⟩ := hv
  obtain ⟨p, hp, hpos⟩ := h.pos (isFinite_of_seconds? hq)
  cases v with
  | int i =>
    obtain rfl := Option.some.inj hp
    exact isTime_int (by exact_mod_cast hpos)
  | float x => exact isTime_float hp hpos
  | _ => cases hp

theorem InMillionths.isMicro (h : v.InMillionths) : IsMicro v.seconds := by
  obtain ⟨q, hq, hmicro⟩ := h
  rwa [seconds, hq, Option.getD_some]

end Value

/-! ## scenes one after another -/

namespace Scene

/-- How long a scene lasts. -/
def length (s : Scene) : ℚ := s.duration.seconds

/-- How long a scene and the one after it are on at once. -/
def overlap (s : Scene) : ℚ := s.transition.duration.seconds

/-- A scene whose times are read exactly. -/
structure IsTimed (s : Scene) : Prop where
  duration : s.duration.IsTime
  transition : s.transition.duration.IsTime
  length : IsMicro s.length
  overlap : IsMicro s.overlap

/-- When scene `k` starts: after the lengths of the scenes before it, less their overlaps. -/
def startAt (scenes : List Scene) (k : Nat) : ℚ :=
  ((scenes.take k).map fun s => s.length - s.overlap).sum

/-- The sum of all lengths and overlaps. -/
def span (scenes : List Scene) : ℚ := (scenes.map fun s => s.length + s.overlap).sum

variable {s : Scene} {rest scenes : List Scene} {k : Nat}

@[simp] theorem startAt_zero : startAt scenes 0 = 0 := rfl

@[simp] theorem startAt_cons_succ :
    startAt (s :: rest) (k + 1) = s.length - s.overlap + startAt rest k := by
  simp [startAt]

/-- A scene starts at the end of the scene before it, less their overlap. -/
theorem startAt_succ (hs : scenes[k]? = some s) :
    startAt scenes (k + 1) = startAt scenes k + (s.length - s.overlap) := by
  simp [startAt, List.take_add_one, hs]

@[simp] theorem span_nil : span [] = 0 := rfl

@[simp] theorem span_cons : span (s :: rest) = s.length + s.overlap + span rest := by
  simp [span]

theorem IsTimed.length_nonneg (h : s.IsTimed) : 0 ≤ s.length := h.duration.nonneg

theorem IsTimed.overlap_nonneg (h : s.IsTimed) : 0 ≤ s.overlap := h.transition.nonneg

theorem span_nonneg (h : ∀ s ∈ scenes, s.IsTimed) : 0 ≤ span scenes := by
  refine List.sum_nonneg fun q hq => ?_
  obtain ⟨s, hs, rfl⟩ := List.mem_map.1 hq
  exact add_nonneg (h s hs).length_nonneg (h s hs).overlap_nonneg

/-- The scenes that are left, with the time that was reckoned so far, stay within the numbers
that are not rounded. -/
structure Fits (q : ℚ) (scenes : List Scene) : Prop where
  micro : IsMicro q
  timed : ∀ s ∈ scenes, s.IsTimed
  small : |q| + span scenes < 10 ^ 20

namespace Fits

variable {q : ℚ} {x y : Decimal} (h : Fits q (s :: rest))
include h

theorem head : s.IsTimed := h.timed s List.mem_cons_self

theorem bound : |q| + s.length + s.overlap < 10 ^ 20 := by
  have hsmall := h.small
  have hrest := span_nonneg fun s hs => h.timed s (List.mem_cons_of_mem _ hs)
  rw [span_cons] at hsmall
  linarith

/-- A walk over scenes that fits goes on to scenes that fit. -/
theorem next : Fits (q + (s.length - s.overlap)) rest where
  micro := h.micro.add (h.head.length.sub h.head.overlap)
  timed s' hs' := h.timed s' (List.mem_cons_of_mem _ hs')
  small := by
    have hsmall := h.small
    have hlength := h.head.length_nonneg
    have hoverlap := h.head.overlap_nonneg
    have habs : |q + (s.length - s.overlap)| ≤ |q| + (s.length + s.overlap) := by
      refine (abs_add_le _ _).trans (add_le_add_right ?_ _)
      rw [abs_le]
      constructor <;> linarith
    rw [span_cons] at hsmall
    linarith

/-- So does one that does not look at transitions. -/
theorem nextLength : Fits (q + s.length) rest where
  micro := h.micro.add h.head.length
  timed := h.next.timed
  small := by
    have hsmall := h.small
    have hoverlap := h.head.overlap_nonneg
    have habs := abs_add_le q s.length
    rw [abs_of_nonneg h.head.length_nonneg] at habs
    rw [span_cons] at hsmall
    linarith

theorem length_lt : s.length < 10 ^ 20 := by
  have := h.bound
  have := h.head.overlap_nonneg
  have := abs_nonneg q
  linarith

theorem overlap_lt : s.overlap < 10 ^ 20 := by
  have := h.bound
  have := h.head.length_nonneg
  have := abs_nonneg q
  linarith

/-- The end of a scene is exact. -/
theorem add_length (hx : x.toRat? = some q) (hy : y.toRat? = some s.length) :
    ∃ z, x.add y = .ok z ∧ z.toRat? = some (q + s.length) := by
  refine add_exact hx hy (h.micro.add h.head.length) ((abs_add_le _ _).trans_lt ?_)
  have hbound := h.bound
  have hoverlap := h.head.overlap_nonneg
  rw [abs_of_nonneg h.head.length_nonneg]
  linarith

/-- The start of the scene after it is exact. -/
theorem sub_overlap (hx : x.toRat? = some (q + s.length)) (hy : y.toRat? = some s.overlap) :
    ∃ z, x.sub y = .ok z ∧ z.toRat? = some (q + (s.length - s.overlap)) := by
  have hnext := h.next
  have hspan := span_nonneg hnext.timed
  have hsmall := hnext.small
  rw [← add_sub_assoc] at hnext hsmall ⊢
  exact sub_exact hx hy hnext.micro (by linarith)

end Fits

/-- The end of the scene after a transition is exact, if the transition is taken off last. -/
theorem Fits.sub_next {q : ℚ} {x y : Decimal} {s' : Scene} (h : Fits q (s :: s' :: rest))
    (hx : x.toRat? = some (q + s.length + s'.length)) (hy : y.toRat? = some s.overlap) :
    ∃ z, x.sub y = .ok z ∧ z.toRat? = some (q + (s.length - s.overlap) + s'.length) := by
  have hnext := h.next.nextLength
  have hspan := span_nonneg hnext.timed
  have hsmall := hnext.small
  have hcomm : q + (s.length - s.overlap) + s'.length = q + s.length + s'.length - s.overlap := by
    ring
  rw [hcomm] at hnext hsmall ⊢
  exact sub_exact hx hy hnext.micro (by linarith)

/-- Every start is some millionths, too, and stays within the numbers that are not rounded. -/
theorem Fits.startAt {q : ℚ} (h : Fits q scenes) (k : Nat) :
    IsMicro (q + startAt scenes k) ∧ |q + startAt scenes k| < 10 ^ 20 := by
  induction scenes generalizing q k with
  | nil => simpa [Scene.startAt] using And.intro h.micro h.small
  | cons s rest ih =>
    cases k with
    | zero =>
      have hspan := span_nonneg h.timed
      have hsmall := h.small
      rw [startAt_zero, add_zero]
      exact ⟨h.micro, by linarith⟩
    | succ k =>
      rw [startAt_cons_succ, ← add_assoc]
      exact ih h.next k

/-- The times of scenes are whole numbers of millionths, and their sum is small. -/
structure HasExactTimes (scenes : List Scene) : Prop where
  length : ∀ s ∈ scenes, s.duration.InMillionths
  overlap : ∀ s ∈ scenes, s.transition.duration.InMillionths
  small : span scenes < 10 ^ 20

theorem HasExactTimes.fits (h : HasExactTimes scenes) (haccepted : ∀ s ∈ scenes, s.Accepted) :
    Fits 0 scenes where
  micro := .zero
  timed s hs :=
    ⟨Value.isTime_of_inRange (haccepted s hs).duration (h.length s hs),
      Value.isTime_of_inRange (haccepted s hs).transition.duration (h.overlap s hs),
      (h.length s hs).isMicro, (h.overlap s hs).isMicro⟩
  small := by simpa using h.small

/-! ## the walks -/

/-- The start of scene `k` is what the walk finds under its id. -/
theorem startFrom_eq {start : Decimal} {q : ℚ} (hids : (scenes.map Scene.id).Nodup)
    (hfits : Fits q scenes) (hstart : start.toRat? = some q) (hk : k < scenes.length) :
    ∃ d, startFrom start scenes[k].id scenes = .ok d ∧ d.toRat? = some (q + startAt scenes k) := by
  induction scenes generalizing start q k with
  | nil => exact absurd hk (Nat.not_lt_zero k)
  | cons s rest ih =>
    cases k with
    | zero =>
      refine ⟨start, if_pos rfl, ?_⟩
      rw [startAt_zero, add_zero, hstart]
    | succ k =>
      rw [List.map_cons, List.nodup_cons] at hids
      have hk' : k < rest.length := Nat.lt_of_succ_lt_succ hk
      have hne : ¬ s.id = rest[k].id := by
        intro heq
        exact hids.1 (heq ▸ List.mem_map_of_mem (List.getElem_mem hk'))
      have hrest : rest.isEmpty = false := by
        rw [List.isEmpty_eq_false_iff, ← List.length_pos_iff]
        omega
      obtain ⟨length, hlength, hlength'⟩ := hfits.head.duration.byText hfits.length_lt
      obtain ⟨overlap, hoverlap, hoverlap'⟩ := hfits.head.transition.byText hfits.overlap_lt
      obtain ⟨stop, hstop, hstop'⟩ := hfits.add_length hstart hlength'
      obtain ⟨next, hnext, hnext'⟩ := hfits.sub_overlap hstop' hoverlap'
      obtain ⟨d, hd, hd'⟩ := ih hids.2 hfits.next hnext' hk'
      refine ⟨d, ?_, ?_⟩
      · rw [List.getElem_cons_succ, startFrom, if_neg hne]
        refine bind_eq_ok.2 ⟨length, hlength, bind_eq_ok.2 ⟨stop, hstop, ?_⟩⟩
        rw [hrest, if_neg Bool.false_ne_true]
        exact bind_eq_ok.2 ⟨overlap, hoverlap, bind_eq_ok.2 ⟨next, hnext, hd⟩⟩
      · rw [hd', startAt_cons_succ, add_assoc]

/-- The total of the scenes is the sum of their lengths, whatever their transitions are. -/
theorem totalFrom_of_lengths {before : Decimal} {q : ℚ} (hq : IsMicro q)
    (hlengths : ∀ s ∈ scenes, s.duration.IsTime ∧ IsMicro s.length)
    (hsmall : |q| + (scenes.map Scene.length).sum < 10 ^ 20) (hbefore : before.toRat? = some q) :
    ∃ d, totalFrom before scenes = .ok d ∧ d.toRat? = some (q + (scenes.map Scene.length).sum) := by
  induction scenes generalizing before q with
  | nil => exact ⟨before, rfl, by simpa using hbefore⟩
  | cons s rest ih =>
    obtain ⟨⟨htime, hmicro⟩, hrest⟩ := List.forall_mem_cons.1 hlengths
    have hnonneg : 0 ≤ s.length := htime.nonneg
    have hsum : 0 ≤ (rest.map Scene.length).sum := by
      refine List.sum_nonneg fun q hq => ?_
      obtain ⟨s', hs', rfl⟩ := List.mem_map.1 hq
      exact (hrest s' hs').1.nonneg
    have habs := abs_add_le q s.length
    rw [abs_of_nonneg hnonneg] at habs
    rw [List.map_cons, List.sum_cons] at hsmall ⊢
    have hlength : s.length < 10 ^ 20 := by linarith [abs_nonneg q]
    obtain ⟨length, hread, hlength'⟩ := htime.byText hlength
    obtain ⟨stop, hstop, hstop'⟩ :=
      add_exact hbefore hlength' (hq.add hmicro) (by linarith : |q + s.length| < 10 ^ 22)
    obtain ⟨d, hd, hd'⟩ := ih (hq.add hmicro) hrest (by linarith) hstop'
    refine ⟨d, bind_eq_ok.2 ⟨length, hread, bind_eq_ok.2 ⟨stop, hstop, hd⟩⟩, ?_⟩
    rw [hd', add_assoc]

/-- So it is for scenes whose times fit. -/
theorem totalFrom_eq {before : Decimal} {q : ℚ} (hfits : Fits q scenes)
    (hbefore : before.toRat? = some q) :
    ∃ d, totalFrom before scenes = .ok d ∧ d.toRat? = some (q + (scenes.map Scene.length).sum) := by
  refine totalFrom_of_lengths hfits.micro
    (fun s hs => ⟨(hfits.timed s hs).duration, (hfits.timed s hs).length⟩) ?_ hbefore
  have hspan : (scenes.map Scene.length).sum ≤ span scenes :=
    List.sum_le_sum fun s hs => le_add_of_nonneg_right (hfits.timed s hs).overlap_nonneg
  have hsmall := hfits.small
  linarith

/-- The lengths add up to the start of the last scene, its length, and the overlaps before. -/
theorem sum_length_eq (hne : scenes ≠ []) :
    (scenes.map Scene.length).sum = startAt scenes (scenes.length - 1)
      + (scenes.getLast hne).length + ((scenes.take (scenes.length - 1)).map Scene.overlap).sum := by
  induction scenes with
  | nil => exact absurd rfl hne
  | cons s rest ih =>
    cases rest with
    | nil => simp
    | cons s' rest =>
      have hrest := ih (List.cons_ne_nil s' rest)
      rw [List.map_cons, List.sum_cons, hrest, List.getLast_cons (List.cons_ne_nil s' rest)]
      simp only [List.length_cons, Nat.add_sub_cancel, startAt_cons_succ, List.take_succ_cons,
        List.map_cons, List.sum_cons]
      ring

end Scene

/-! ## specifications -/

namespace Specification

variable {spec : Specification} {k : Nat}

/-- A scene is found under its id. -/
theorem scene?_of_mem (hids : (spec.scenes.map Scene.id).Nodup) {s : Scene}
    (hs : s ∈ spec.scenes) : spec.scene? s.id = some s := by
  obtain ⟨before, after, hsplit⟩ := List.append_of_mem hs
  rw [hsplit, List.map_append, List.map_cons, List.nodup_append] at hids
  rw [scene?, List.find?_eq_some_iff_append]
  refine ⟨beq_self_eq_true _, before, after, hsplit, fun s' hs' => ?_⟩
  have hne : s'.id ≠ s.id := hids.2.2 _ (List.mem_map_of_mem hs') _ List.mem_cons_self
  simpa using hne

theorem sceneStart_eq (hids : (spec.scenes.map Scene.id).Nodup)
    (hfits : Scene.Fits 0 spec.scenes) (hk : k < spec.scenes.length) :
    ∃ d, spec.sceneStart spec.scenes[k].id = .ok d ∧
      d.toRat? = some (Scene.startAt spec.scenes k) := by
  obtain ⟨d, hd, hd'⟩ := Scene.startFrom_eq hids hfits toRat?_zero hk
  exact ⟨d, hd, by rw [hd', zero_add]⟩

theorem totalDuration_eq (hfits : Scene.Fits 0 spec.scenes) :
    ∃ d, spec.totalDuration = .ok d ∧
      d.toRat? = some ((spec.scenes.map Scene.length).sum) := by
  obtain ⟨d, hd, hd'⟩ := Scene.totalFrom_eq hfits toRat?_zero
  exact ⟨d, hd, by rw [hd', zero_add]⟩

end Specification

end Storyboard
