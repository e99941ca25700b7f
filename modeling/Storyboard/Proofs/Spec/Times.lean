import Storyboard.Proofs.Spec.Timeline

/-!
# Storyboard.Proofs.Spec.Times

The times of a specification: how long its scenes and transitions last, when its layers and tracks
start and for how long they are on, and the parts of clips and tracks that are used.  Each of them
is given or left out; one that was read from finite numbers stands for a number of seconds.

* `Value.NothingOrSeconds.toRat?` — the decimal that a time is reckoned with;
* `Specification.Accepted.times` — the times of a specification that was read;
* `Specification.HasExactTimes` — times with which nothing is rounded.
-/

namespace Storyboard

open Number Decimal Spec.Field

/-! ## one time -/

namespace Value

/-- A time that is left out, or stands for a number of seconds. -/
def NothingOrSeconds (v : Value) : Prop := v = .null ∨ ∃ q, v.seconds? = some q

/-- A time that is left out, or is some millionths of a second below `10 ^ 20`. -/
def NothingOrExact (v : Value) : Prop := v = .null ∨ v.InMillionths ∧ |v.seconds| < 10 ^ 20

@[simp] theorem nothingOrExact_null : NothingOrExact .null := .inl rfl

@[simp] theorem nothingOrExact_ofNat {n : Nat} :
    NothingOrExact (no_index (OfNat.ofNat n)) ↔ n < 10 ^ 20 := by
  have habs : |seconds (OfNat.ofNat n)| = (n : ℚ) := abs_of_nonneg (Nat.cast_nonneg n)
  constructor
  · rintro (hnull | ⟨-, hsmall⟩)
    · cases hnull
    · rw [habs] at hsmall
      exact_mod_cast hsmall
  · intro hsmall
    refine .inr ⟨inMillionths_ofNat n, ?_⟩
    rw [habs]
    exact_mod_cast hsmall

variable {range : Range} {v : Value} {d : Decimal}

theorem NothingOrExact.nothingOrSeconds (h : v.NothingOrExact) : v.NothingOrSeconds := by
  obtain rfl | ⟨⟨q, hq, -⟩, -⟩ := h
  · exact .inl rfl
  · exact .inr ⟨q, hq⟩

/-- A time is reckoned with as what it stands for. -/
theorem NothingOrSeconds.toRat? (h : v.NothingOrSeconds) (hd : v.toDecimal = .ok d) :
    d.toRat? = some v.seconds := by
  obtain rfl | ⟨q, hq⟩ := h
  · cases hd
  · rw [seconds, hq, Option.getD_some]
    cases v with
    | int i =>
      obtain rfl := Except.ok.inj hd
      obtain rfl := Option.some.inj hq
      exact toRat?_ofInt i
    | float x =>
      obtain rfl := Except.ok.inj hd
      exact hq
    | _ => cases hq

/-- A time that is given can be reckoned with. -/
theorem NothingOrSeconds.exists_toDecimal (h : v.NothingOrSeconds) (hgiven : v ≠ .null) :
    ∃ d, v.toDecimal = .ok d := by
  obtain rfl | ⟨q, hq⟩ := h
  · exact absurd rfl hgiven
  · cases v with
    | int i => exact ⟨_, rfl⟩
    | float x => exact ⟨_, rfl⟩
    | _ => cases hq

theorem NothingOrExact.toRat? (h : v.NothingOrExact) (hd : v.toDecimal = .ok d) :
    d.toRat? = some v.seconds :=
  h.nothingOrSeconds.toRat? hd

/-- A time that is reckoned with was given. -/
theorem NothingOrExact.inMillionths (h : v.NothingOrExact) (hd : v.toDecimal = .ok d) :
    IsMicro v.seconds ∧ |v.seconds| < 10 ^ 20 := by
  obtain rfl | ⟨hmicro, hsmall⟩ := h
  · cases hd
  · exact ⟨hmicro.isMicro, hsmall⟩

/-- A value that is reckoned with as a time: some millionths of a second, below `10 ^ 20`. -/
structure IsMoment (v : Value) (q : ℚ) : Prop where
  decimal : ∃ d, v.toDecimal = .ok d ∧ d.toRat? = some q
  micro : IsMicro q
  small : |q| < 10 ^ 20

theorem NothingOrExact.isMoment (h : v.NothingOrExact) (hd : v.toDecimal = .ok d) :
    v.IsMoment v.seconds where
  decimal := ⟨d, hd, h.toRat? hd⟩
  micro := (h.inMillionths hd).1
  small := (h.inMillionths hd).2

namespace IsMoment

variable {q : ℚ}

theorem toRat? (h : v.IsMoment q) (hd : v.toDecimal = .ok d) : d.toRat? = some q := by
  obtain ⟨d', hd', hq⟩ := h.decimal
  obtain rfl := Except.ok.inj (hd.symm.trans hd')
  exact hq

theorem ne_null (h : v.IsMoment q) : v ≠ .null := by
  rintro rfl
  obtain ⟨d, hd, -⟩ := h.decimal
  cases hd

theorem ofNat {n : Nat} (h : n < 10 ^ 20) : IsMoment (OfNat.ofNat n) n where
  decimal := ⟨_, rfl, toRat?_ofInt n⟩
  micro := (inMillionths_ofNat n).isMicro
  small := by
    rw [Nat.abs_cast]
    exact_mod_cast h

/-- A time is written exactly. -/
theorem denotes (h : v.IsMoment q) (hd : v.toDecimal = .ok d) : Numeral.Denotes d.shortText q :=
  Numeral.denotes_shortText (h.toRat? hd) h.micro

end IsMoment

theorem ne_null_of_inRange (h : InRange range v) : v ≠ .null := by
  rintro rfl
  obtain ⟨x, hx, -⟩ := h
  cases hx

/-- A time above zero, by whichever number it was given, stands for more than no time. -/
theorem NothingOrSeconds.pos (h : v.NothingOrSeconds) (hrange : InRange .aboveZero v) :
    0 < v.seconds := by
  obtain rfl | ⟨q, hq⟩ := h
  · exact absurd rfl (ne_null_of_inRange hrange)
  · obtain ⟨p, hp, hpos⟩ := hrange.pos (isFinite_of_seconds? hq)
    rw [seconds, hq, Option.getD_some]
    cases v with
    | int i =>
      obtain rfl := Option.some.inj hp
      obtain rfl := Option.some.inj hq
      exact hpos
    | float x =>
      obtain ⟨r, hr, hrpos⟩ := Double.toDecimal_pos hp hpos
      obtain rfl := Option.some.inj (hr.symm.trans hq)
      exact hrpos
    | _ => cases hq

/-- A finite number in a range stands for a number of seconds. -/
theorem nothingOrSeconds_of_inRangeOrNull (h : InRangeOrNull range v) (hv : v.isFinite = true) :
    v.NothingOrSeconds := by
  obtain rfl | ⟨x, hx, -⟩ := h
  · exact .inl rfl
  · cases v with
    | int i => exact .inr ⟨i, rfl⟩
    | float y =>
      cases y with
      | finite negative m e hcanonical =>
        obtain ⟨c, e', hdecimal, -⟩ :
            ∃ c e', (Double.finite negative m e hcanonical).toDecimal = .finite negative c e' ∧
              Double.InReach c e' := Double.toDecimal_finite hcanonical
        exact .inr ⟨_, (congrArg Decimal.toRat? hdecimal).trans (toRat?_finite negative c e')⟩
      | infinite negative => cases hv
      | nan => cases hv
    | _ => cases hx

end Value

/-! ## all times -/

/-- Since when a layer is on, and for how long. -/
def Layer.timing : Layer → Value × Value
  | .text l => (l.start, l.duration)
  | .image l => (l.start, l.duration)
  | .video l => (l.start, l.duration)
  | .shape l => (l.start, l.duration)
  | .other _ _ => (0, .null)

/-- The times of a layer. -/
def Layer.times : Layer → List Value
  | .video l => l.start :: l.duration :: l.trim.values
  | l => [l.timing.1, l.timing.2]

/-- The times of a scene; of a background only clips have any. -/
def Scene.times (s : Scene) : List Value :=
  s.duration :: s.transition.duration :: (s.background.values ++ s.layers.flatMap Layer.times)

/-- The times of a track. -/
def AudioTrack.times (t : AudioTrack) : List Value :=
  [t.start, t.duration, t.fadeIn, t.fadeOut] ++ t.trim.values

/-- The times that a graph is compiled from. -/
def Specification.times (s : Specification) : List Value :=
  s.scenes.flatMap Scene.times ++ s.audio.tracks.flatMap AudioTrack.times

section Members

variable {P : Value → Prop}

theorem Layer.times_of_timing {l : Layer} (h : ∀ v ∈ l.times, P v) :
    P l.timing.1 ∧ P l.timing.2 := by
  cases l <;> exact ⟨h _ (by simp [times, timing]), h _ (by simp [times, timing])⟩

theorem Scene.times_of_layer {s : Scene} {l : Layer} (h : ∀ v ∈ s.times, P v)
    (hl : l ∈ s.layers) : ∀ v ∈ l.times, P v := fun v hv =>
  h v (by simpa [times] using .inr (.inr (.inr ⟨l, hl, hv⟩)))

theorem Scene.times_of_background {s : Scene} {src : String} {trim : Trim}
    (h : ∀ v ∈ s.times, P v) (hb : s.background = .video src trim) : ∀ v ∈ trim.values, P v :=
  fun v hv => h v (by simpa [times, hb, Background.values] using .inr (.inr (.inl hv)))

theorem Specification.times_of_scene {spec : Specification} {s : Scene}
    (h : ∀ v ∈ spec.times, P v) (hs : s ∈ spec.scenes) : ∀ v ∈ s.times, P v := fun v hv =>
  h v (List.mem_append_left _ (List.mem_flatMap.2 ⟨s, hs, hv⟩))

theorem Specification.times_of_track {spec : Specification} {t : AudioTrack}
    (h : ∀ v ∈ spec.times, P v) (ht : t ∈ spec.audio.tracks) : ∀ v ∈ t.times, P v := fun v hv =>
  h v (List.mem_append_right _ (List.mem_flatMap.2 ⟨t, ht, hv⟩))

end Members

/-! ## times that were read -/

section Reading

open Value

theorem Spec.Field.Timed.times {start duration : Value} (h : Timed start duration)
    (hstart : start.isFinite = true) (hduration : duration.isFinite = true) :
    start.NothingOrSeconds ∧ duration.NothingOrSeconds :=
  ⟨nothingOrSeconds_of_inRangeOrNull (.inr h.start) hstart,
    nothingOrSeconds_of_inRangeOrNull h.duration hduration⟩

theorem Trim.Accepted.times {t : Trim} (h : t.Accepted) (ht : ∀ v ∈ t.values, v.isFinite = true) :
    ∀ v ∈ t.values, v.NothingOrSeconds := by
  simp only [Trim.values, List.forall_mem_cons] at ht ⊢
  exact ⟨nothingOrSeconds_of_inRangeOrNull (.inr h.start) ht.1,
    nothingOrSeconds_of_inRangeOrNull h.stop ht.2.1, List.forall_mem_nil _⟩

theorem Background.Accepted.times {b : Background} (h : b.Accepted)
    (hb : ∀ v ∈ b.values, v.isFinite = true) : ∀ v ∈ b.values, v.NothingOrSeconds := by
  cases h with
  | video _ htrim => exact htrim.times hb
  | _ => exact List.forall_mem_nil _

theorem Layer.Accepted.timed {l : Layer} (h : l.Accepted) : Timed l.timing.1 l.timing.2 := by
  cases h with
  | text h => exact h.timed
  | image h => exact h.timed
  | video h => exact h.timed
  | shape h => exact h.timed

theorem Layer.Accepted.times {l : Layer} (h : l.Accepted) (hl : ∀ v ∈ l.values, v.isFinite = true) :
    ∀ v ∈ l.times, v.NothingOrSeconds := by
  have hfinite : l.timing.1.isFinite = true ∧ l.timing.2.isFinite = true := by
    cases h <;> exact ⟨hl _ (by simp [values, timing]), hl _ (by simp [values, timing])⟩
  obtain ⟨hstart, hduration⟩ := h.timed.times hfinite.1 hfinite.2
  cases h with
  | video h =>
    have htrim := h.trim.times fun v hv => hl v (by simp [values, hv])
    exact List.forall_mem_cons.2 ⟨hstart, List.forall_mem_cons.2 ⟨hduration, htrim⟩⟩
  | _ => simp [Layer.times, hstart, hduration]

theorem Scene.Accepted.times {s : Scene} (h : s.Accepted) (hs : ∀ v ∈ s.values, v.isFinite = true) :
    ∀ v ∈ s.times, v.NothingOrSeconds := by
  simp only [Scene.values, List.forall_mem_cons, List.forall_mem_append, List.forall_mem_flatMap]
    at hs
  obtain ⟨hduration, htransition, hbackground, hlayers⟩ := hs
  simp only [Scene.times, List.forall_mem_cons, List.forall_mem_append, List.forall_mem_flatMap]
  exact ⟨nothingOrSeconds_of_inRangeOrNull (.inr h.duration) hduration,
    nothingOrSeconds_of_inRangeOrNull (.inr h.transition.duration) htransition,
    h.background.times hbackground, fun l hl => (h.layers l hl).times (hlayers l hl)⟩

theorem AudioTrack.Accepted.times {t : AudioTrack} (h : t.Accepted)
    (ht : ∀ v ∈ t.values, v.isFinite = true) : ∀ v ∈ t.times, v.NothingOrSeconds := by
  simp only [AudioTrack.values, List.forall_mem_append, List.forall_mem_cons] at ht
  obtain ⟨⟨hstart, hduration, -, hfadeIn, hfadeOut, -⟩, htrim⟩ := ht
  obtain ⟨hstart, hduration⟩ := h.timed.times hstart hduration
  simp only [AudioTrack.times, List.forall_mem_append, List.forall_mem_cons]
  exact ⟨⟨hstart, hduration, nothingOrSeconds_of_inRangeOrNull (.inr h.fadeIn) hfadeIn,
    nothingOrSeconds_of_inRangeOrNull (.inr h.fadeOut) hfadeOut, List.forall_mem_nil _⟩,
    h.trim.times htrim⟩

/-- The times of a specification that was read from finite numbers stand for numbers of seconds. -/
theorem Specification.Accepted.times {s : Specification} (h : s.Accepted)
    (hs : ∀ v ∈ s.values, v.isFinite = true) : ∀ v ∈ s.times, v.NothingOrSeconds := by
  simp only [Specification.values, Audio.values, List.forall_mem_append, List.forall_mem_cons,
    List.forall_mem_flatMap] at hs
  obtain ⟨⟨⟨⟨hscenes, -⟩, -, htracks⟩, -⟩, -⟩ := hs
  simp only [Specification.times, List.forall_mem_append, List.forall_mem_flatMap]
  exact ⟨fun scene hscene => (h.scene scene hscene).times (hscenes scene hscene),
    fun track htrack => (h.audio.tracks track htrack).times (htracks track htrack)⟩

end Reading

/-- The times of a specification are some millionths of a second, and small. -/
def Specification.HasExactTimes (s : Specification) : Prop := ∀ v ∈ s.times, v.NothingOrExact

end Storyboard
