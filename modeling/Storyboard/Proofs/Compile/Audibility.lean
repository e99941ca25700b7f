import Storyboard.Proofs.Compile.Filters
import Storyboard.Proofs.Compile.Timeline
import Storyboard.Proofs.Graph.Audible
import Storyboard.Proofs.Number.Whole
import Storyboard.Proofs.Spec.Times

/-!
# Storyboard.Proofs.Compile.Audibility

How a track is heard.  Its file is cut to a part, made louder or softer, faded in and out, and
played later, to the millisecond.  Each of these is a change of how the file is heard, whether or
not filters are written for it; where they are left out, the change is none.

* `AudioTrack.playback_window`, `AudioTrack.playback_volume`, `AudioTrack.playback_fadeIn`,
  `AudioTrack.playback_fadeOut`, `AudioTrack.playback_delay` — one change and its filters;
* `AudioTrack.playback_filters` — all of them, one after another;
* `AudioTrack.audible_compile` — which instants of the file are heard, when, and how loud.
-/

namespace Storyboard

open Build Number Spec.Field

/-! ## numbers -/

namespace Decimal

variable {x y d : Decimal} {p q : ℚ}

theorem same_eq (hx : x.toRat? = some p) (hy : y.toRat? = some q) :
    x.same y = .ok (decide (p = q)) := by
  have hcmp : x.same y = .ok (x.cmp y == some .eq) := by
    obtain ⟨n, c, e, rfl, -⟩ := exists_of_toRat? hx
    obtain ⟨m, b, g, rfl, -⟩ := exists_of_toRat? hy
    rfl
  rw [hcmp, cmp_eq hx hy]
  rcases lt_trichotomy p q with h | h | h
  · simp [compare_lt_iff_lt.2 h, h.ne]
  · simp [h]
  · simp [compare_gt_iff_gt.2 h, h.ne']

/-- A number of seconds in milliseconds. -/
theorem milliseconds_eq (hd : d.toRat? = some q) :
    d.milliseconds = .ok ⌊1000 * q + 1 / 2⌋ := by
  rw [milliseconds, ratioOfDecimal_eq hd, mul_comm, ← roundHalfUp_eq]
  rfl

/-- A decimal that is some millionths, and not too large to reckon with exactly. -/
structure StandsFor (d : Decimal) (q : ℚ) : Prop where
  value : d.toRat? = some q
  micro : IsMicro q
  small : |q| < 10 ^ 21

theorem StandsFor.denotes (h : d.StandsFor q) : Numeral.Denotes d.shortText q :=
  Numeral.denotes_shortText h.value h.micro

theorem StandsFor.isWritable (h : d.StandsFor q) : d.isWritable = true :=
  isWritable_of_toRat? h.value h.small (by decide)

end Decimal

open Decimal

theorem Numeral.denotes_repr (i : Int) : Numeral.Denotes i.repr i := by
  rw [← shortText_ofInt]
  exact denotes_shortText (toRat?_ofInt i) ⟨i * 10 ^ 6, by push_cast; ring⟩

/-- The decimal of a number from zero on is from zero on. -/
theorem Double.toDecimal_nonneg {x : Double} {p q : ℚ} (hx : x.toRat? = some p) (hp : 0 ≤ p)
    (hq : x.toDecimal.toRat? = some q) : 0 ≤ q := by
  obtain hpos | rfl := hp.lt_or_eq
  · obtain ⟨r, hr, hrpos⟩ := toDecimal_pos hx hpos
    obtain rfl := Option.some.inj (hr.symm.trans hq)
    exact hrpos.le
  · cases x with
    | finite negative m e h =>
      have hm : m = 0 := by
        have hzero : (withSign negative (magnitude m e).1 : ℚ) / (magnitude m e).2 = 0 := by
          rw [← Rat.mkRat_eq_div]
          exact Option.some.inj hx
        have hvalue :
            |(withSign negative (magnitude m e).1 : ℚ) / (magnitude m e).2| = m * 2 ^ e := by
          rw [abs_div, abs_withSign, Nat.abs_cast, magnitude_value]
        rw [hzero, abs_zero, eq_comm, mul_eq_zero] at hvalue
        exact_mod_cast hvalue.resolve_right (by positivity)
      have hdecimal : (Double.finite negative m e h).toDecimal = .finite negative 0 (-1) :=
        (toDecimal_finite_eq h).trans (if_pos hm)
      rw [hdecimal, toRat?_finite] at hq
      rw [← Option.some.inj hq]
      cases negative <;> simp [withSign]
    | infinite negative => cases hx
    | nan => cases hx

namespace Value

variable {v : Value}

/-- A time from zero on, by whichever number it was given, stands for no less than no time. -/
theorem NothingOrSeconds.nonneg (h : v.NothingOrSeconds) (hrange : InRange .fromZero v) :
    0 ≤ v.seconds := by
  obtain rfl | ⟨q, hq⟩ := h
  · exact absurd rfl (ne_null_of_inRange hrange)
  · obtain ⟨p, hp, hnonneg⟩ := hrange.nonneg (isFinite_of_seconds? hq)
    rw [seconds, hq, Option.getD_some]
    cases v with
    | int i =>
      obtain rfl := Option.some.inj hp
      obtain rfl := Option.some.inj hq
      exact hnonneg
    | float x => exact Double.toDecimal_nonneg hp hnonneg hq
    | _ => cases hq

/-- What stands for a number of seconds can be written. -/
theorem NothingOrSeconds.isWritable {d : Decimal} (h : v.NothingOrSeconds)
    (hd : v.toDecimal = .ok d) : d.isWritable = true := by
  obtain rfl | ⟨q, hq⟩ := h
  · cases hd
  · cases v with
    | int i =>
      obtain rfl := Except.ok.inj hd
      exact isWritable_ofInt i
    | float x =>
      obtain rfl := Except.ok.inj hd
      exact x.isWritable_toDecimal
    | _ => cases hq

/-- A time that is given is reckoned with as what it stands for. -/
theorem NothingOrExact.exists_standsFor (h : v.NothingOrExact) (hgiven : v ≠ .null) :
    ∃ d, v.toDecimal = .ok d ∧ d.StandsFor v.seconds := by
  obtain ⟨d, hd⟩ := h.nothingOrSeconds.exists_toDecimal hgiven
  obtain ⟨hmicro, hsmall⟩ := h.inMillionths hd
  exact ⟨d, hd, h.toRat? hd, hmicro, hsmall.trans (by norm_num)⟩

end Value

/-! ## the changes -/

/-- The gain of a sound that fades in for so long. -/
def fadeInGain (length t : ℚ) : ℚ := if 0 < length then ramp 0 length t else 1

/-- The gain of a sound that fades out from a time on for so long. -/
def fadeOutGain (start length t : ℚ) : ℚ := if 0 < length then 1 - ramp start length t else 1

namespace AudioTrack

/-- The instant of its file from which on a track is heard. -/
def first (track : AudioTrack) : ℚ := track.trim.start.seconds

/-- The instant of its file before which a track is heard, unless it is heard to the end. -/
def last? (track : AudioTrack) : Option ℚ :=
  match track.trim.stop, track.duration with
  | .null, .null => none
  | .null, duration => some (track.first + duration.seconds)
  | stop, _ => some stop.seconds

theorem last?_of_open {track : AudioTrack} (hopen : track.trim.stop = .null)
    (hforGood : track.duration = .null) : track.last? = none := by
  rw [last?, hopen, hforGood]

theorem last?_of_lasting {track : AudioTrack} (hopen : track.trim.stop = .null)
    (hlasting : track.duration ≠ .null) :
    track.last? = some (track.first + track.duration.seconds) := by
  rw [last?, hopen]
  split
  · next hforGood => exact absurd hforGood hlasting
  · rfl
  · next hgiven _ => exact absurd rfl hgiven

theorem last?_of_given {track : AudioTrack} (hgiven : track.trim.stop ≠ .null) :
    track.last? = some track.trim.stop.seconds := by
  unfold last?
  split
  · next hopen _ => exact absurd hopen hgiven
  · next hopen _ => exact absurd hopen hgiven
  · rfl

/-- How long after the first instant a fade-out starts: so that it ends with the last one, if that
is the anchor and the last one is known, else at once. -/
def fallTime (anchor : Anchor) (first : ℚ) (last? : Option ℚ) (length : ℚ) : ℚ :=
  match anchor, last? with
  | .stop, some last => max 0 (last - first - length)
  | _, _ => 0

variable {anchor : Anchor} {track : AudioTrack} {p : Playback} {d start fade : Decimal}
  {stop? : Option Decimal} {q r : ℚ} {last? : Option ℚ}

theorem playback_window (hstart : start.StandsFor q) (hq : 0 ≤ q)
    (hstop : Option.Rel StandsFor stop? last?) :
    ∃ fs, windowFilters start stop? = .ok fs ∧
      playbackAfter? fs {} = some { first := q, stop? := last?, shift := -q } := by
  have hlater := isPositive_eq hstart.value
  cases hstop with
  | @some stop last hstop =>
    have hcut := Filter.playback?_cut (p := {}) hstart.denotes hstop.denotes
    refine ⟨[.call "atrim" [.time "start" start, .time "end" stop],
      .call "asetpts" [.plain "PTS-STARTPTS"]], windowFilters_eq_ok.2 ⟨_, hlater, ?_⟩, ?_⟩
    · rw [if_pos (by simp)]
      exact ⟨⟨hstart.isWritable, by simpa using hstop.isWritable⟩, rfl⟩
    · rw [playbackAfter?_pair hcut, Filter.playback?_fromZero]
      simp [Playback.cut, Playback.fromZero, hq]
  | none =>
    by_cases hpos : 0 < q
    · have hcut := Filter.playback?_cut_open (p := {}) hstart.denotes
      refine ⟨[.call "atrim" [.time "start" start], .call "asetpts" [.plain "PTS-STARTPTS"]],
        windowFilters_eq_ok.2 ⟨_, hlater, ?_⟩, ?_⟩
      · rw [if_pos (by simpa using hpos)]
        exact ⟨⟨hstart.isWritable, by simp⟩, rfl⟩
      · rw [playbackAfter?_pair hcut, Filter.playback?_fromZero]
        simp [Playback.cut, Playback.fromZero, hq]
    · obtain rfl : q = 0 := le_antisymm (not_lt.1 hpos) hq
      exact ⟨[], windowFilters_eq_ok.2 ⟨_, hlater, by simp⟩, by simp⟩

theorem playback_volume (hwritable : d.isWritable = true) (hd : d.toRat? = some q)
    (hq : IsMicro q) :
    ∃ fs, volumeFilters d = .ok fs ∧ playbackAfter? fs p = some (p.amplify fun _ => q) := by
  have hsame := same_eq hd (toRat?_ofInt 1)
  by_cases hone : q = 1
  · exact ⟨[], volumeFilters_eq_ok.2 ⟨_, hsame, by simp [hone]⟩,
      by simp [hone, Playback.amplify_one]⟩
  · refine ⟨[.call "volume" [.plain d.shortText]], volumeFilters_eq_ok.2 ⟨_, hsame, ?_⟩, ?_⟩
    · rw [if_neg (by simpa using hone)]
      exact ⟨hwritable, rfl⟩
    · simp [Filter.playback?_volume (Numeral.denotes_shortText hd hq)]

theorem playback_fadeIn (hd : d.StandsFor q) : ∃ fs, fadeInFilters d = .ok fs ∧
    playbackAfter? fs p = some (p.amplify (fadeInGain q)) := by
  have hfades := isPositive_eq hd.value
  by_cases hpos : 0 < q
  · have hgain : fadeInGain q = ramp 0 q := funext fun t => if_pos hpos
    refine ⟨[.call "afade" [.named "t" "in", .time "d" d]],
      fadeInFilters_eq_ok.2 ⟨_, hfades, ?_⟩, ?_⟩
    · rw [if_pos (by simpa using hpos)]
      exact ⟨hd.isWritable, rfl⟩
    · simp [hgain, Filter.playback?_fadeIn hd.denotes]
  · have hgain : p.amplify (fadeInGain q) = p := Playback.amplify_one fun t => if_neg hpos
    exact ⟨[], fadeInFilters_eq_ok.2 ⟨_, hfades, by simp [hpos]⟩, by simp [hgain]⟩

theorem fadeOutStart_eq (anchor : Anchor) (hfade : fade.StandsFor q) (hstart : start.StandsFor r)
    (hstop : Option.Rel StandsFor stop? last?) :
    ∃ d, fadeOutStart anchor fade start stop? = .ok d ∧ d.isWritable = true ∧
      Numeral.Denotes d.shortText (fallTime anchor r last? q) := by
  have hzero : Numeral.Denotes Decimal.zero.shortText 0 :=
    Numeral.denotes_shortText toRat?_zero .zero
  cases anchor with
  | start => exact ⟨_, rfl, rfl, hzero⟩
  | stop =>
    cases hstop with
    | none => exact ⟨_, rfl, rfl, hzero⟩
    | @some stop last hstop =>
      have hlength : |last - r| < 2 * 10 ^ 21 := by
        linarith [abs_sub last r, hstop.small, hstart.small]
      have hsmall : |last - r - q| < 3 * 10 ^ 21 := by
        linarith [abs_sub (last - r) q, hfade.small]
      obtain ⟨length, hlength, hlength'⟩ := sub_exact hstop.value hstart.value
        (hstop.micro.sub hstart.micro) (hlength.trans (by norm_num))
      obtain ⟨left, hleft, hleft'⟩ := sub_exact hlength' hfade.value
        ((hstop.micro.sub hstart.micro).sub hfade.micro) (hsmall.trans (by norm_num))
      obtain ⟨d, hd, hd'⟩ := greater_eq toRat?_zero hleft'
      refine ⟨d, ?_, isWritable_of_toRat? (K := 22) hd' ?_ (by decide),
        Numeral.denotes_shortText hd' ?_⟩
      · exact bind_eq_ok.2 ⟨length, hlength, bind_eq_ok.2 ⟨left, hleft, hd⟩⟩
      · exact abs_max_le_max_abs_abs.trans_lt (max_lt (by norm_num) (hsmall.trans (by norm_num)))
      · exact IsMicro.zero.max ((hstop.micro.sub hstart.micro).sub hfade.micro)

theorem playback_fadeOut (anchor : Anchor) (hfade : fade.StandsFor q) (hstart : start.StandsFor r)
    (hstop : Option.Rel StandsFor stop? last?) :
    ∃ fs, fadeOutFilters anchor fade start stop? = .ok fs ∧
      playbackAfter? fs p = some (p.amplify (fadeOutGain (fallTime anchor r last? q) q)) := by
  obtain ⟨first, hfirst, hwritable, hdenotes⟩ := fadeOutStart_eq anchor hfade hstart hstop
  by_cases hpos : 0 < q
  · have hgain : fadeOutGain (fallTime anchor r last? q) q
        = fun t => 1 - ramp (fallTime anchor r last? q) q t := funext fun t => if_pos hpos
    refine ⟨[.call "afade" [.named "t" "out", .time "d" fade, .time "st" first]],
      fadeOutFilters_eq_ok.2 ⟨_, isPositive_eq hfade.value, ?_⟩, ?_⟩
    · rw [if_pos (by simpa using hpos)]
      exact ⟨first, hfirst, ⟨hfade.isWritable, hwritable⟩, rfl⟩
    · rw [playbackAfter?_singleton, Filter.playback?_fadeOut hfade.denotes hdenotes, hgain]
  · have hgain : p.amplify (fadeOutGain (fallTime anchor r last? q) q) = p :=
      Playback.amplify_one fun t => if_neg hpos
    refine ⟨[], fadeOutFilters_eq_ok.2 ⟨_, isPositive_eq hfade.value, ?_⟩, ?_⟩
    · simp [hpos]
    · rw [hgain, playbackAfter?_nil]

theorem playback_delay (hd : d.StandsFor q) (hq : 0 ≤ q) : ∃ fs, delayFilters d = .ok fs ∧
    playbackAfter? fs p = some (p.delay (⌊1000 * q + 1 / 2⌋ / 1000)) := by
  by_cases hpos : 0 < q
  · refine ⟨[.call "adelay" [.named "delays" ⌊1000 * q + 1 / 2⌋.repr, .named "all" "1"]],
      delayFilters_eq_ok.2 ⟨_, isPositive_eq hd.value, ?_⟩, ?_⟩
    · rw [if_pos (by simpa using hpos)]
      exact ⟨_, milliseconds_eq hd.value, rfl⟩
    · rw [playbackAfter?_singleton, Filter.playback?_delay (Numeral.denotes_repr _)]
  · -- no time is no milliseconds, also when it is rounded
    obtain rfl : q = 0 := le_antisymm (not_lt.1 hpos) hq
    have hzero : ⌊(1000 * 0 + 1 / 2 : ℚ)⌋ = 0 := by norm_num
    refine ⟨[], delayFilters_eq_ok.2 ⟨_, isPositive_eq hd.value, ?_⟩, ?_⟩
    · simp
    · rw [hzero, Int.cast_zero, zero_div, Playback.delay_zero, playbackAfter?_nil]

/-- The part of its file that a track is cut to. -/
theorem window_eq (hfirst : track.trim.start.NothingOrExact) (hgiven : track.trim.start ≠ .null)
    (hstop : track.trim.stop.NothingOrExact) (hduration : track.duration.NothingOrExact) :
    ∃ start stop?, track.window = .ok (start, stop?) ∧ start.StandsFor track.first ∧
      Option.Rel StandsFor stop? track.last? := by
  obtain ⟨start, hstart, hvalue⟩ := hfirst.exists_standsFor hgiven
  unfold AudioTrack.window
  split
  · next hopen hforGood =>
    rw [last?_of_open hopen hforGood]
    exact ⟨start, none, bind_eq_ok.2 ⟨start, hstart, rfl⟩, hvalue, .none⟩
  · next hopen hlasting =>
    obtain ⟨length, hlength, hlength'⟩ := hduration.exists_standsFor hlasting
    have hsmall : |track.first + track.duration.seconds| < 10 ^ 21 := by
      have hfirst' : |track.first| < 10 ^ 20 := (hfirst.inMillionths hstart).2
      have hlength'' := (hduration.inMillionths hlength).2
      linarith [abs_add_le track.first track.duration.seconds]
    obtain ⟨stop, hadd, hsum⟩ := add_exact hvalue.value hlength'.value
      (hvalue.micro.add hlength'.micro) (hsmall.trans (by norm_num))
    rw [last?_of_lasting hopen hlasting]
    refine ⟨start, some stop, bind_eq_ok.2 ⟨start, hstart, bind_eq_ok.2 ⟨length, hlength,
      bind_eq_ok.2 ⟨stop, hadd, rfl⟩⟩⟩, hvalue, .some ⟨hsum, hvalue.micro.add hlength'.micro, ?_⟩⟩
    exact hsmall
  · next hgiven _ =>
    obtain ⟨stop, hstop, hstop'⟩ := hstop.exists_standsFor hgiven
    rw [last?_of_given hgiven]
    exact ⟨start, some stop, bind_eq_ok.2 ⟨start, hstart, bind_eq_ok.2 ⟨stop, hstop, rfl⟩⟩,
      hvalue, .some hstop'⟩

/-- The part of its file that a track is cut to, played at once. -/
def part (track : AudioTrack) : Playback :=
  { first := track.first, stop? := track.last?, shift := -track.first }

theorem time_part {x : ℚ} : track.part.time x = x - track.first := (sub_eq_add_neg ..).symm

/-- How a track is heard: its part, with its volume and its fades, and later. -/
def playback (anchor : Anchor) (track : AudioTrack) : Playback :=
  (((track.part.amplify fun _ => track.volume.seconds).amplify
    (fadeInGain track.fadeIn.seconds)).amplify
    (fadeOutGain (fallTime anchor track.first track.last? track.fadeOut.seconds)
      track.fadeOut.seconds)).delay (⌊1000 * track.start.seconds + 1 / 2⌋ / 1000)

/-- The filters of a track that was read from exact numbers come about, and let it be heard so. -/
theorem playback_filters (anchor : Anchor) (h : track.Accepted)
    (htimes : ∀ v ∈ track.times, v.NothingOrExact) (hvolume : track.volume.InMillionths) :
    ∃ fs, filters anchor track = .ok fs ∧ playbackAfter? fs {} = some (track.playback anchor) := by
  simp only [AudioTrack.times, Trim.values, List.forall_mem_append, List.forall_mem_cons] at htimes
  obtain ⟨⟨hstart, hduration, hfadeIn, hfadeOut, -⟩, hfirst, hstop, -⟩ := htimes
  obtain ⟨first, stop?, hwindow, hfirst', hstop'⟩ :=
    window_eq hfirst (Value.ne_null_of_inRange h.trim.start) hstop hduration
  have hvolume' : track.volume.NothingOrSeconds := .inr ⟨_, hvolume.choose_spec.1⟩
  obtain ⟨volume, hvolumeOk⟩ := hvolume'.exists_toDecimal (Value.ne_null_of_inRange h.volume)
  obtain ⟨fadeIn, hfadeInOk, hfadeIn'⟩ :=
    hfadeIn.exists_standsFor (Value.ne_null_of_inRange h.fadeIn)
  obtain ⟨fadeOut, hfadeOutOk, hfadeOut'⟩ :=
    hfadeOut.exists_standsFor (Value.ne_null_of_inRange h.fadeOut)
  obtain ⟨delay, hdelayOk, hdelay'⟩ :=
    hstart.exists_standsFor (Value.ne_null_of_inRange h.timed.start)
  obtain ⟨kept, hkept, hplayed⟩ :=
    playback_window hfirst' (hfirst.nothingOrSeconds.nonneg h.trim.start) hstop'
  obtain ⟨louder, hlouder, hplayed₂⟩ :=
    playback_volume (hvolume'.isWritable hvolumeOk) (hvolume'.toRat? hvolumeOk) hvolume.isMicro
  obtain ⟨fadedIn, hfadedIn, hplayed₃⟩ := playback_fadeIn hfadeIn'
  obtain ⟨fadedOut, hfadedOut, hplayed₄⟩ := playback_fadeOut anchor hfadeOut' hfirst' hstop'
  obtain ⟨delayed, hdelayed, hplayed₅⟩ :=
    playback_delay hdelay' (hstart.nothingOrSeconds.nonneg h.timed.start)
  have hall : playbackAfter? (kept ++ louder ++ fadedIn ++ fadedOut ++ delayed) {}
      = some (track.playback anchor) := by
    rw [List.append_assoc, List.append_assoc, List.append_assoc, playbackAfter?_append hplayed,
      playbackAfter?_append hplayed₂, playbackAfter?_append hplayed₃,
      playbackAfter?_append hplayed₄, hplayed₅]
    rfl
  refine ⟨_, bind_eq_ok.2 ⟨_, hwindow, bind_eq_ok.2 ⟨_, hkept, bind_eq_ok.2 ⟨_, hvolumeOk,
    bind_eq_ok.2 ⟨_, hlouder, bind_eq_ok.2 ⟨_, hfadeInOk, bind_eq_ok.2 ⟨_, hfadedIn,
    bind_eq_ok.2 ⟨_, hfadeOutOk, bind_eq_ok.2 ⟨_, hfadedOut, bind_eq_ok.2 ⟨_, hdelayOk,
    bind_eq_ok.2 ⟨_, hdelayed, rfl⟩⟩⟩⟩⟩⟩⟩⟩⟩⟩, ?_⟩
  split
  · next hempty =>
    rw [List.isEmpty_iff.1 hempty] at hall
    rw [playbackAfter?_singleton, Filter.playback?_unchanged, ← hall, playbackAfter?_nil]
  · exact hall

/-- A track that was read from times of some millionths of a second below `10 ^ 20`, and with a
volume of some millionths, is heard as it says.  It is compiled to a statement that reads its file;
just the instants of its part are heard, in the order and at the distances that they have, and the
first at the start of the track, to the millisecond; and each with the volume, softened by both
fades where they are under way. -/
theorem audible_compile {place : Place} {v : Value} (h : AudioTrack.ofValue place v = .ok track)
    (htimes : ∀ time ∈ track.times, time.NothingOrExact) (hvolume : track.volume.InMillionths)
    (anchor : Anchor) (t : Int) (s : Inputs) :
    ∃ n p, Gives (compile anchor track t) s n (s.extend [track.src]) ∧
      n.inputs = [.input s.paths.length .audio] ∧ n.playback? = some p ∧
      ∀ x, (p.Hears x ↔ track.first ≤ x ∧ ∀ last ∈ track.last?, x < last) ∧
        p.time x = ⌊1000 * track.start.seconds + 1 / 2⌋ / 1000 + (x - track.first) ∧
        p.gain x = track.volume.seconds * fadeInGain track.fadeIn.seconds (x - track.first) *
          fadeOutGain (fallTime anchor track.first track.last? track.fadeOut.seconds)
            track.fadeOut.seconds (x - track.first) := by
  have haccepted := AudioTrack.accepted_of_ofValue h
  obtain ⟨fs, hfs, hplayed⟩ := playback_filters anchor haccepted htimes hvolume
  refine ⟨_, track.playback anchor, gives_track.2 (.track haccepted.src hfs), rfl, hplayed,
    fun x => ⟨Iff.rfl, ?_, ?_⟩⟩
  · rw [playback, Playback.time_delay, add_comm]
    simp only [Playback.time_amplify, time_part]
  · simp only [playback, Playback.gain_delay, Playback.gain_amplify, Playback.time_amplify,
      time_part]
    simp [part]

/-- A track that starts after two and a half seconds, at half its volume, and fades in and out. -/
def lateSong : Value :=
  .map [("src", "song.mp3"), ("type", "bgm"), ("start", 2.5), ("duration", 10), ("volume", 0.5),
    ("fade_in", 2), ("fade_out", 4), ("trim", .map [("from", 3)])]

/-- The song as a track. -/
def lateTrack : AudioTrack where
  src := "song.mp3"
  start := 2.5
  duration := 10
  volume := 0.5
  fadeIn := 2
  fadeOut := 4
  trim := { start := 3 }

theorem ofValue_lateSong : ofValue (.root "song") lateSong = .ok lateTrack := by
  with_unfolding_all rfl

/-- Ten seconds of the song are heard, and three seconds into its fade-out a quarter of the volume
is left. -/
theorem audible_lateSong : ∃ n p s', ofValue (.root "song") lateSong = .ok lateTrack ∧
    (∀ time ∈ lateTrack.times, time.NothingOrExact) ∧ lateTrack.volume.InMillionths ∧
    Gives (compile .stop lateTrack 0) ⟨"/media", []⟩ n s' ∧ n.playback? = some p ∧
    (∀ x, p.Hears x ↔ 3 ≤ x ∧ x < 13) ∧ p.time 3 = 5 / 2 ∧ p.gain 12 = 1 / 8 := by
  have hhalf : lateTrack.volume.InMillionths := ⟨_, Value.seconds?_half, 500000, by norm_num⟩
  have hlong : Value.NothingOrExact 2.5 :=
    .inr ⟨⟨_, Value.seconds?_five_halves, 2500000, by norm_num⟩,
      by norm_num [Value.seconds_five_halves]⟩
  have htimes : ∀ time ∈ lateTrack.times, time.NothingOrExact := by
    simp [AudioTrack.times, lateTrack, Trim.values, hlong]
  have hfirst : lateTrack.first = 3 := rfl
  have hlast : lateTrack.last? = some 13 := by
    rw [last?_of_lasting rfl (by simp [lateTrack]), hfirst]
    norm_num [lateTrack]
  obtain ⟨n, p, hgives, -, hplayed, hheard⟩ :=
    audible_compile ofValue_lateSong htimes hhalf .stop 0 ⟨"/media", []⟩
  rw [hfirst, hlast] at hheard
  refine ⟨n, p, _, ofValue_lateSong, htimes, hhalf, hgives, hplayed, ?_, ?_, ?_⟩
  · intro x
    simpa using (hheard x).1
  · rw [(hheard 3).2.1]
    norm_num [lateTrack, Value.seconds_five_halves]
  · rw [(hheard 12).2.2]
    norm_num [lateTrack, fadeInGain, fadeOutGain, fallTime, ramp, Value.seconds_half]

end AudioTrack

end Storyboard
