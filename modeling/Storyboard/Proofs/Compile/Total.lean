import Storyboard.Proofs.Compile.Filters
import Storyboard.Proofs.Compile.Step
import Storyboard.Proofs.Spec.InBounds

/-!
# Storyboard.Proofs.Compile.Total

Filters that come about.  Every number of ordinary size becomes a decimal of at most 311 digits
before the point; sums of these are rounded before they become much longer, however many there
are, so no filter that is made of such numbers fails.

* `Decimal.Within.add`, `Decimal.Within.sub` — running sums stay in bounds;
* `Value.InBounds.toDecimal` — a number of ordinary size is a decimal in bounds;
* `Output.InBounds.plainColor`, `Scene.clipFilters_succeeds`, `AudioTrack.InBounds.filters`,
  `Transition.chain_succeeds` — backgrounds, layers, tracks and joints come about;
* `Output.toRate_of_not_isWritable` — but not a rate with too many digits.
-/

namespace Storyboard

open Number

/-! ## decimals -/

namespace Decimal

variable {j k : Nat} {x y : Decimal}

/-- A decimal that stands for a rational number of `10 ^ k` at most. -/
def Within (k : Nat) (d : Decimal) : Prop := ∃ q, d.toRat? = some q ∧ |q| ≤ 10 ^ k

theorem Within.mono (h : Within j x) (hjk : j ≤ k) : Within k x := by
  obtain ⟨q, hq, hle⟩ := h
  exact ⟨q, hq, hle.trans (pow_le_pow_right₀ (by norm_num) hjk)⟩

/-- An integer below a power of ten, as natural numbers. -/
theorem natAbs_lt {i : Int} (h : |(i : ℚ)| ≤ 10 ^ j) (hjk : j < k) : i.natAbs < tens k := by
  have hcast : (i.natAbs : ℚ) < tens k := by
    rw [cast_tens, Nat.cast_natAbs, Int.cast_abs]
    exact h.trans_lt (pow_lt_pow_right₀ (by norm_num) hjk)
  exact_mod_cast hcast

theorem within_zero : Within k .zero := ⟨0, toRat?_zero, by simp⟩

theorem within_one : Within 0 (.ofInt 1) := ⟨1, toRat?_ofInt 1, by norm_num⟩

theorem Within.less (hx : Within j x) (hy : Within k y) : ∃ b, x.less y = .ok b := by
  obtain ⟨p, hp, -⟩ := hx
  obtain ⟨q, hq, -⟩ := hy
  exact ⟨_, less_eq hp hq⟩

theorem Within.isPositive (hx : Within k x) : ∃ b, x.isPositive = .ok b := by
  obtain ⟨p, hp, -⟩ := hx
  exact ⟨_, isPositive_eq hp⟩

theorem Within.same (hx : Within j x) (hy : Within k y) : ∃ b, x.same y = .ok b := by
  obtain ⟨p, hp, -⟩ := hx
  obtain ⟨q, hq, -⟩ := hy
  obtain ⟨n, c, e, rfl, -⟩ := exists_of_toRat? hp
  obtain ⟨m, d, f, rfl, -⟩ := exists_of_toRat? hq
  exact ⟨_, rfl⟩

theorem Within.greater (hx : Within k x) (hy : Within k y) :
    ∃ z, x.greater y = .ok z ∧ z.Within k := by
  obtain ⟨p, hp, hple⟩ := hx
  obtain ⟨q, hq, hqle⟩ := hy
  obtain ⟨z, hz, hz'⟩ := greater_eq hp hq
  exact ⟨z, hz, _, hz', abs_max_le_max_abs_abs.trans (max_le hple hqle)⟩

/-- What is in bounds can be written. -/
theorem Within.isWritable (hx : Within k x) (hk : k < 400) : x.isWritable = true := by
  obtain ⟨p, hp, hple⟩ := hx
  exact isWritable_of_toRat? hp (hple.trans_lt (pow_lt_pow_right₀ (by norm_num) hk)) (by decide)

theorem Within.written (hx : Within k x) (hk : k < 400) : x.written = .ok x :=
  written_eq_ok.2 ⟨hx.isWritable hk, rfl⟩

theorem Within.milliseconds (hx : Within k x) : ∃ i, x.milliseconds = .ok i := by
  obtain ⟨p, hp, -⟩ := hx
  obtain ⟨n, c, e, rfl, -⟩ := exists_of_toRat? hp
  exact ⟨_, rfl⟩

/-- A term is less than what rounding takes away from a sum that exceeds its bound. -/
theorem sum_lt {p : ℚ} (h : p ≤ 10 ^ 340 + 10 ^ 310) :
    p < 10 ^ ((340 : Nat) : Int) + 10 ^ (((340 : Nat) : Int) - 29) := by
  have hround : (10 : ℚ) ^ 310 < 10 ^ 311 := pow_lt_pow_right₀ (by norm_num) (by decide)
  have hexponent : ((340 : Nat) : Int) - 29 = ((311 : Nat) : Int) := rfl
  rw [hexponent, zpow_natCast, zpow_natCast]
  exact h.trans_lt (add_lt_add_right hround _)

/-- What is added to a running sum is lost in rounding before the sum exceeds its bound. -/
theorem Within.add (hx : x.Within 340) (hy : y.Within 310) :
    ∃ z, x.add y = .ok z ∧ z.Within 340 := by
  obtain ⟨p, hp, hple⟩ := hx
  obtain ⟨q, hq, hqle⟩ := hy
  have hsmall := sum_lt ((abs_add_le p q).trans (add_le_add hple hqle))
  obtain ⟨z, r, hz, hz', hle⟩ := add_within (by decide) hp hq hsmall
  exact ⟨z, hz, r, hz', hle⟩

theorem Within.sub (hx : x.Within 340) (hy : y.Within 310) :
    ∃ z, x.sub y = .ok z ∧ z.Within 340 := by
  obtain ⟨p, hp, hple⟩ := hx
  obtain ⟨q, hq, hqle⟩ := hy
  have hsmall := sum_lt ((abs_sub p q).trans (add_le_add hple hqle))
  obtain ⟨z, r, hz, hz', hle⟩ := sub_within (by decide) hp hq hsmall
  exact ⟨z, hz, r, hz', hle⟩

end Decimal

/-! ## values -/

namespace Value

variable {v : Value}

theorem InBounds.toDecimal (h : v.InBounds) : ∃ d, v.toDecimal = .ok d ∧ d.Within 310 := by
  obtain ⟨q, hq, hle⟩ := h
  cases v with
  | int i =>
    obtain rfl := Option.some.inj hq
    exact ⟨_, rfl, i, Decimal.toRat?_ofInt i,
      hle.trans (pow_le_pow_right₀ (by norm_num) (by decide))⟩
  | float x =>
    cases x with
    | finite negative m e h =>
      obtain ⟨c, e', hd, hreach⟩ :
          ∃ c e', (Double.finite negative m e h).toDecimal = .finite negative c e' ∧
            Double.InReach c e' := Double.toDecimal_finite h
      refine ⟨_, congrArg _ hd, _, Decimal.toRat?_finite negative c e', ?_⟩
      rw [← Decimal.value_eq_abs rfl, ← zpow_natCast]
      exact hreach.value.le
    | infinite negative => cases hq
    | nan => cases hq
  | _ => cases hq

theorem InBounds.plainText (h : v.InBounds) : ∃ s, v.plainText = .ok s := by
  rcases h.form with ⟨i, rfl⟩ | ⟨x, rfl⟩
  · obtain ⟨q, hq, hle⟩ := h
    obtain rfl := Option.some.inj hq
    have hlimit : 308 < digitLimit := by decide
    rw [plainText_int]
    exact ⟨_, integerText_of_short (Decimal.natAbs_lt hle hlimit)⟩
  · exact ⟨_, rfl⟩

theorem InBounds.numberText (h : v.InBounds) : ∃ s, v.numberText = .ok s := by
  obtain ⟨d, hd, hd'⟩ := h.toDecimal
  exact ⟨_, numberText_eq_ok.2 ⟨d, hd, hd'.isWritable (by decide), rfl⟩⟩

theorem InBounds.optionText (h : v.InBounds) : ∃ s, v.optionText = .ok s := by
  rcases h.form with ⟨i, rfl⟩ | ⟨x, rfl⟩ <;> exact h.numberText

/-- An option comes about if its value has a text. -/
theorem option_succeeds (h : ∃ s, v.optionText = .ok s) (name : String) :
    ∃ o, FilterOption.of name v = .ok o := by
  obtain ⟨s, hs⟩ := h
  rw [FilterOption.of, exists_bind_eq_ok hs]
  exact ⟨_, rfl⟩

theorem positional_succeeds (h : ∃ s, v.optionText = .ok s) :
    ∃ o, FilterOption.positional v = .ok o := by
  obtain ⟨s, hs⟩ := h
  rw [FilterOption.positional, exists_bind_eq_ok hs]
  exact ⟨_, rfl⟩

theorem InBounds.option (h : v.InBounds) (name : String) :
    ∃ o, FilterOption.of name v = .ok o := option_succeeds h.optionText name

end Value

/-! ## filters -/

theorem Position.InBounds.resolve {p : Position} (h : p.InBounds) (frame : Frame) :
    ∃ r, p.resolve frame = .ok r := by
  have haxis {v : Value} (hv : v.IsPlace) (canvas size : String) :
      ∃ s, axis v canvas size = .ok s := by
    rcases hv with ⟨s, rfl⟩ | hv
    · unfold axis
      split
      · next heq => cases heq
      · next heq => cases heq
      all_goals exact ⟨_, rfl⟩
    · rcases hv.form with ⟨i, rfl⟩ | ⟨x, rfl⟩ <;> exact hv.numberText
  obtain ⟨x, hx⟩ := haxis h.x frame.canvasWidth frame.width
  obtain ⟨y, hy⟩ := haxis h.y frame.canvasHeight frame.height
  rw [Position.resolve, exists_bind_eq_ok hx, exists_bind_eq_ok hy]
  exact ⟨_, rfl⟩

theorem Size.InBounds.scale {s : Size} (h : s.InBounds) : ∃ f, s.scale = .ok f := by
  have hside {v : Value} (hv : v.IsLength) : ∃ t, scaleText v = .ok t := by
    rcases hv with rfl | hv
    · exact ⟨_, rfl⟩
    · rcases hv.form with ⟨i, rfl⟩ | ⟨x, rfl⟩ <;> exact hv.numberText
  obtain ⟨width, hwidth⟩ := hside h.width
  obtain ⟨height, hheight⟩ := hside h.height
  rw [Size.scale, exists_bind_eq_ok hwidth, exists_bind_eq_ok hheight]
  exact ⟨_, rfl⟩

/-- The end of a part of something that starts at `start` and is on for `duration`. -/
theorem Value.InBounds.stop {start : Decimal} {duration : Value} (hstart : start.Within 310)
    (h : duration.InBounds) :
    ∃ length stop, duration.toDecimal = .ok length ∧ start.add length = .ok stop ∧
      stop.Within 340 := by
  obtain ⟨length, hlength, hlength'⟩ := h.toDecimal
  obtain ⟨stop, hstop, hstop'⟩ := (hstart.mono (by decide)).add hlength'
  exact ⟨length, stop, hlength, hstop, hstop'⟩

theorem Window.InBounds.of {start duration : Value} (h : InBounds start duration) :
    ∃ w, Window.of start duration = .ok w := by
  obtain ⟨first, hfirst, hfirst'⟩ := h.start.toDecimal
  rw [Window.of, exists_bind_eq_ok hfirst]
  rcases h.duration with rfl | hduration
  · obtain ⟨later, hlater⟩ := hfirst'.isPositive
    rw [exists_bind_eq_ok hlater]
    cases later with
    | false => exact ⟨_, rfl⟩
    | true =>
      rw [if_pos rfl, exists_bind_eq_ok (hfirst'.written (by decide))]
      exact ⟨_, rfl⟩
  · obtain ⟨length, stop, hlength, hstop, hstop'⟩ := hduration.stop hfirst'
    split
    · exact absurd hduration Value.not_inBounds_null
    · rw [exists_bind_eq_ok hlength, exists_bind_eq_ok hstop,
        exists_bind_eq_ok (hfirst'.written (by decide)),
        exists_bind_eq_ok (hstop'.written (by decide))]
      exact ⟨_, rfl⟩

/-! ## layers -/

theorem fromStart_succeeds {start : Value} (h : start.InBounds) :
    ∃ f, Scene.fromStart start = .ok f := by
  obtain ⟨d, hd, hd'⟩ := h.toDecimal
  obtain ⟨later, hlater⟩ := hd'.isPositive
  rw [Scene.fromStart, exists_bind_eq_ok hd, exists_bind_eq_ok hlater]
  cases later with
  | false => exact ⟨_, rfl⟩
  | true =>
    rw [if_pos rfl, exists_bind_eq_ok (hd'.written (by decide))]
    exact ⟨_, rfl⟩

theorem opacityFilters_succeeds {opacity : Value} (h : opacity.InBounds) :
    ∃ fs, opacityFilters opacity = .ok fs := by
  obtain ⟨d, hd, hd'⟩ := h.toDecimal
  obtain ⟨clear, hclear⟩ := hd'.less Decimal.within_one
  obtain ⟨o, ho⟩ := h.option "aa"
  unfold opacityFilters
  split
  · exact ⟨_, rfl⟩
  · rw [exists_bind_eq_ok hd, exists_bind_eq_ok hclear]
    cases clear with
    | false => exact ⟨_, rfl⟩
    | true =>
      rw [if_pos rfl, exists_bind_eq_ok ho]
      exact ⟨_, rfl⟩

theorem TextLayer.InBounds.filter {l : TextLayer} (h : l.InBounds) (base : String) :
    ∃ f, l.filter base = .ok f := by
  obtain ⟨r, hr⟩ := h.position.resolve .drawnText
  obtain ⟨shadow, hshadow, hshadow'⟩ := h.shadow.toDecimal
  obtain ⟨shadowed, hshadowed⟩ := hshadow'.isPositive
  obtain ⟨w, hw⟩ := h.window.of
  obtain ⟨size, hsize⟩ := h.size.option "fontsize"
  obtain ⟨outline, houtline⟩ := h.outline.option "borderw"
  obtain ⟨x, hx⟩ := h.shadow.option "shadowx"
  obtain ⟨y, hy⟩ := h.shadow.option "shadowy"
  simp only [TextLayer.filter]
  rw [exists_bind_eq_ok hr, exists_bind_eq_ok hshadow, exists_bind_eq_ok hshadowed,
    exists_bind_eq_ok hw, exists_bind_eq_ok hsize, exists_bind_eq_ok houtline]
  cases shadowed with
  | false => exact ⟨_, rfl⟩
  | true =>
    rw [if_pos rfl, exists_bind_eq_ok hx, exists_bind_eq_ok hy]
    exact ⟨_, rfl⟩

theorem ShapeLayer.InBounds.filter {l : ShapeLayer} (h : l.InBounds) : ∃ f, l.filter = .ok f := by
  have hside {v : Value} (hv : v.IsLength) (name : String) :
      ∃ o, FilterOption.of name (Size.shapeDimension v) = .ok o := by
    rcases hv with rfl | hv
    · exact ⟨_, rfl⟩
    · rcases hv.form with ⟨i, rfl⟩ | ⟨x, rfl⟩ <;> exact hv.option name
  obtain ⟨r, hr⟩ := h.position.resolve .drawnBox
  obtain ⟨opacity, hopacity⟩ := h.opacity.numberText
  obtain ⟨w, hw⟩ := h.window.of
  obtain ⟨width, hwidth⟩ := hside h.size.width "w"
  obtain ⟨height, hheight⟩ := hside h.size.height "h"
  simp only [ShapeLayer.filter]
  rw [exists_bind_eq_ok hr, exists_bind_eq_ok hopacity, exists_bind_eq_ok hw,
    exists_bind_eq_ok hwidth, exists_bind_eq_ok hheight]
  exact ⟨_, rfl⟩

namespace Scene

theorem imageFilters_succeeds {l : ImageLayer} (h : l.InBounds) :
    ∃ fs, imageFilters l = .ok fs := by
  obtain ⟨scaled, hscaled⟩ := h.size.scale
  obtain ⟨fs, hfs⟩ := opacityFilters_succeeds h.opacity
  rw [imageFilters, exists_bind_eq_ok hscaled, exists_bind_eq_ok hfs]
  exact ⟨_, rfl⟩

theorem clipStop_succeeds {scene : Scene} {l : VideoLayer} {start : Decimal} (h : l.InBounds)
    (hscene : scene.duration.InBounds) (hstart : start.Within 310) :
    ∃ stop, clipStop scene l start = .ok stop ∧ stop.Within 340 := by
  have hadd {duration : Value} (hduration : duration.InBounds) :
      ∃ stop, (do start.add (← duration.toDecimal)) = Except.ok stop ∧ stop.Within 340 := by
    obtain ⟨length, stop, hlength, hstop, hstop'⟩ := hduration.stop hstart
    exact ⟨stop, bind_eq_ok.2 ⟨length, hlength, hstop⟩, hstop'⟩
  unfold clipStop
  split
  · exact hadd hscene
  · next hne => exact hadd (h.window.duration.resolve_left hne)
  · next hne _ =>
    obtain ⟨d, hd, hd'⟩ := (h.trim.stop.resolve_left hne).toDecimal
    exact ⟨d, hd, hd'.mono (by decide)⟩

theorem clipFilters_succeeds {scene : Scene} {l : VideoLayer} (h : l.InBounds)
    (hscene : scene.duration.InBounds) : ∃ fs, clipFilters scene l = .ok fs := by
  obtain ⟨start, hstart, hstart'⟩ := h.trim.start.toDecimal
  obtain ⟨stop, hstop, hstop'⟩ := clipStop_succeeds h hscene hstart'
  obtain ⟨moved, hmoved⟩ := fromStart_succeeds h.window.start
  obtain ⟨scaled, hscaled⟩ := h.size.scale
  obtain ⟨fs, hfs⟩ := opacityFilters_succeeds h.opacity
  rw [clipFilters, exists_bind_eq_ok hstart, exists_bind_eq_ok hstop,
    exists_bind_eq_ok (hstart'.written (by decide)), exists_bind_eq_ok (hstop'.written (by decide)),
    exists_bind_eq_ok hmoved, exists_bind_eq_ok hscaled, exists_bind_eq_ok hfs]
  exact ⟨_, rfl⟩

theorem overlayNodes_succeeds {i j : Int} {k : Nat} {shape : List Filter} {position : Position}
    {start duration : Value} {under : Pad} (hposition : position.InBounds)
    (hwindow : Window.InBounds start duration) :
    ∃ nodes, overlayNodes i j k shape position start duration under = .ok nodes := by
  obtain ⟨r, hr⟩ := hposition.resolve .overlay
  obtain ⟨w, hw⟩ := hwindow.of
  simp only [overlayNodes]
  rw [exists_bind_eq_ok hr, exists_bind_eq_ok hw]
  exact ⟨_, rfl⟩

end Scene

/-! ## backgrounds -/

/-- A rate that can be written: the limit on the digits of an integer applies to the parts of an
exact quotient, while any other number is written by way of its decimal. -/
def Value.IsWritable (v : Value) : Prop :=
  ∀ q, v = .ratio q → q.num.natAbs < tens digitLimit ∧ q.den < tens digitLimit

instance : (v : Value) → Decidable v.IsWritable
  | .ratio q =>
    decidable_of_iff (q.num.natAbs < tens digitLimit ∧ q.den < tens digitLimit)
      ⟨fun h p hp => by cases hp; exact h, fun h => h q rfl⟩
  | .null | .bool _ | .int _ | .float _ | .decimal _ | .text _ | .stamp _ | .bytes _ | .pair _ _
  | .set _ | .list _ | .map _ | .ring _ _ | .again _ _ => .isTrue fun _ h => by cases h

theorem Value.IsFrameRate.optionText {v : Value} (h : v.IsFrameRate) (hwritable : v.IsWritable) :
    ∃ s, v.optionText = .ok s := by
  rcases h with ⟨q, rfl⟩ | h
  · obtain ⟨hnum, hden⟩ := hwritable q rfl
    exact exists_ratioText hnum hden
  · exact h.optionText

theorem Value.optionText_of_not_isWritable {v : Value} (h : ¬ v.IsWritable) :
    v.optionText = .error .valueUnsuited := by
  simp only [Value.IsWritable, not_forall] at h
  obtain ⟨q, rfl, hlong⟩ := h
  exact ratioText_of_long hlong

namespace Output

variable {output : Output}

theorem InBounds.toRate (h : output.InBounds) (hwritable : output.fps.IsWritable) :
    ∃ f, output.toRate = .ok f := by
  obtain ⟨o, ho⟩ := Value.positional_succeeds (h.fps.optionText hwritable)
  rw [Output.toRate, exists_bind_eq_ok ho]
  exact ⟨_, rfl⟩

theorem toRate_of_not_isWritable (h : ¬ output.fps.IsWritable) :
    output.toRate = .error .valueUnsuited := by
  rw [Output.toRate, FilterOption.positional, Value.optionText_of_not_isWritable h]
  rfl

theorem InBounds.letterbox (h : output.InBounds) : ∃ fs, output.letterbox = .ok fs := by
  obtain ⟨width, hwidth⟩ := Value.positional_succeeds h.width.optionText
  obtain ⟨height, hheight⟩ := Value.positional_succeeds h.height.optionText
  rw [Output.letterbox, exists_bind_eq_ok hwidth, exists_bind_eq_ok hheight]
  exact ⟨_, rfl⟩

theorem InBounds.plainColor (h : output.InBounds) (hwritable : output.fps.IsWritable)
    {duration : Value} (hduration : duration.InBounds) (color : String) :
    ∃ f, output.plainColor color duration = .ok f := by
  obtain ⟨width, hwidth⟩ := h.width.plainText
  obtain ⟨height, hheight⟩ := h.height.plainText
  have hcanvas : output.canvas = .ok (width ++ "x" ++ height) :=
    bind_eq_ok.2 ⟨width, hwidth, bind_eq_ok.2 ⟨height, hheight, rfl⟩⟩
  obtain ⟨d, hd⟩ := hduration.option "d"
  obtain ⟨r, hr⟩ := Value.option_succeeds (h.fps.optionText hwritable) "r"
  rw [Output.plainColor, exists_bind_eq_ok hcanvas, exists_bind_eq_ok hd, exists_bind_eq_ok hr]
  exact ⟨_, rfl⟩

end Output

/-! ## tracks -/

namespace AudioTrack

variable {track : AudioTrack}

/-- The start of a window is a time that was given, its end may be a sum. -/
theorem InBounds.window_succeeds (h : track.InBounds) :
    ∃ start stop?, track.window = .ok (start, stop?) ∧ start.Within 310 ∧
      ∀ stop ∈ stop?, stop.Within 340 := by
  obtain ⟨start, hstart, hstart'⟩ := h.trim.start.toDecimal
  unfold AudioTrack.window
  split
  · exact ⟨start, none, bind_eq_ok.2 ⟨start, hstart, rfl⟩, hstart', by simp⟩
  · next hne =>
    obtain ⟨length, stop, hlength, hstop, hstop'⟩ :=
      (h.window.duration.resolve_left hne).stop hstart'
    exact ⟨start, some stop, bind_eq_ok.2 ⟨start, hstart, bind_eq_ok.2 ⟨length, hlength,
      bind_eq_ok.2 ⟨stop, hstop, rfl⟩⟩⟩, hstart', by simpa using hstop'⟩
  · next hne _ =>
    obtain ⟨stop, hstop, hstop'⟩ := (h.trim.stop.resolve_left hne).toDecimal
    exact ⟨start, some stop, bind_eq_ok.2 ⟨start, hstart, bind_eq_ok.2 ⟨stop, hstop, rfl⟩⟩,
      hstart', by simpa using hstop'.mono (by decide)⟩

theorem windowFilters_succeeds {start : Decimal} {stop? : Option Decimal} (h : start.Within 310)
    (hstop : ∀ stop ∈ stop?, stop.Within 340) : ∃ fs, windowFilters start stop? = .ok fs := by
  obtain ⟨later, hlater⟩ := h.isPositive
  have hwritten : stop?.mapM Decimal.written = .ok stop? :=
    Decimal.mapM_written_eq_ok.2 ⟨fun stop hs => (hstop stop hs).isWritable (by decide), rfl⟩
  rw [windowFilters, exists_bind_eq_ok hlater]
  split
  · rw [exists_bind_eq_ok (h.written (by decide)), exists_bind_eq_ok hwritten]
    exact ⟨_, rfl⟩
  · exact ⟨_, rfl⟩

theorem volumeFilters_succeeds {volume : Decimal} (h : volume.Within 310) :
    ∃ fs, volumeFilters volume = .ok fs := by
  obtain ⟨same, hsame⟩ := h.same Decimal.within_one
  rw [volumeFilters, exists_bind_eq_ok hsame]
  split
  · exact ⟨_, rfl⟩
  · rw [exists_bind_eq_ok (h.written (by decide))]
    exact ⟨_, rfl⟩

theorem fadeInFilters_succeeds {fade : Decimal} (h : fade.Within 310) :
    ∃ fs, fadeInFilters fade = .ok fs := by
  obtain ⟨fades, hfades⟩ := h.isPositive
  rw [fadeInFilters, exists_bind_eq_ok hfades]
  split
  · rw [exists_bind_eq_ok (h.written (by decide))]
    exact ⟨_, rfl⟩
  · exact ⟨_, rfl⟩

theorem fadeOutStart_succeeds (anchor : Anchor) {fade start : Decimal} {stop? : Option Decimal}
    (hfade : fade.Within 310) (hstart : start.Within 310)
    (hstop : ∀ stop ∈ stop?, stop.Within 340) :
    ∃ d, fadeOutStart anchor fade start stop? = .ok d ∧ d.Within 340 := by
  unfold fadeOutStart
  split
  · next stop =>
    obtain ⟨length, hlength, hlength'⟩ := (hstop stop rfl).sub hstart
    obtain ⟨left, hleft, hleft'⟩ := hlength'.sub hfade
    obtain ⟨d, hd, hd'⟩ := Decimal.within_zero.greater hleft'
    exact ⟨d, bind_eq_ok.2 ⟨length, hlength, bind_eq_ok.2 ⟨left, hleft, hd⟩⟩, hd'⟩
  · exact ⟨_, rfl, Decimal.within_zero⟩

theorem fadeOutFilters_succeeds (anchor : Anchor) {fade start : Decimal} {stop? : Option Decimal}
    (hfade : fade.Within 310) (hstart : start.Within 310)
    (hstop : ∀ stop ∈ stop?, stop.Within 340) :
    ∃ fs, fadeOutFilters anchor fade start stop? = .ok fs := by
  obtain ⟨fades, hfades⟩ := hfade.isPositive
  obtain ⟨d, hd, hd'⟩ := fadeOutStart_succeeds anchor hfade hstart hstop
  rw [fadeOutFilters, exists_bind_eq_ok hfades]
  split
  · rw [exists_bind_eq_ok hd, exists_bind_eq_ok (hfade.written (by decide)),
      exists_bind_eq_ok (hd'.written (by decide))]
    exact ⟨_, rfl⟩
  · exact ⟨_, rfl⟩

theorem delayFilters_succeeds {start : Decimal} (h : start.Within 310) :
    ∃ fs, delayFilters start = .ok fs := by
  obtain ⟨later, hlater⟩ := h.isPositive
  obtain ⟨ms, hms⟩ := h.milliseconds
  rw [delayFilters, exists_bind_eq_ok hlater]
  split
  · rw [exists_bind_eq_ok hms]
    exact ⟨_, rfl⟩
  · exact ⟨_, rfl⟩

theorem InBounds.filters (h : track.InBounds) (anchor : Anchor) :
    ∃ fs, filters anchor track = .ok fs := by
  obtain ⟨start, stop?, hwindow, hstart, hstop⟩ := h.window_succeeds
  obtain ⟨kept, hkept⟩ := windowFilters_succeeds hstart hstop
  obtain ⟨volume, hvolume, hvolume'⟩ := h.volume.toDecimal
  obtain ⟨louder, hlouder⟩ := volumeFilters_succeeds hvolume'
  obtain ⟨fadeIn, hfadeIn, hfadeIn'⟩ := h.fadeIn.toDecimal
  obtain ⟨fadedIn, hfadedIn⟩ := fadeInFilters_succeeds hfadeIn'
  obtain ⟨fadeOut, hfadeOut, hfadeOut'⟩ := h.fadeOut.toDecimal
  obtain ⟨fadedOut, hfadedOut⟩ := fadeOutFilters_succeeds anchor hfadeOut' hstart hstop
  obtain ⟨delay, hdelay, hdelay'⟩ := h.window.start.toDecimal
  obtain ⟨delayed, hdelayed⟩ := delayFilters_succeeds hdelay'
  simp only [AudioTrack.filters]
  rw [exists_bind_eq_ok hwindow, exists_bind_eq_ok hkept, exists_bind_eq_ok hvolume,
    exists_bind_eq_ok hlouder, exists_bind_eq_ok hfadeIn, exists_bind_eq_ok hfadedIn,
    exists_bind_eq_ok hfadeOut, exists_bind_eq_ok hfadedOut, exists_bind_eq_ok hdelay,
    exists_bind_eq_ok hdelayed]
  exact ⟨_, rfl⟩

theorem silence_succeeds {sampleRate : Value} (h : sampleRate.InBounds) :
    ∃ node, silence sampleRate = .ok node := by
  obtain ⟨r, hr⟩ := h.option "r"
  rw [silence, exists_bind_eq_ok hr]
  exact ⟨_, rfl⟩

end AudioTrack

/-! ## joints -/

namespace Transition

/-- However many scenes there are, the running length of those joined stays in bounds. -/
theorem joints_succeeds {last : Scene} {joined : Pad} {running : Decimal} {k : Int}
    {rest : List (Scene × Pad)} (hlast : last.InBounds) (hrest : ∀ p ∈ rest, p.1.InBounds)
    (hrunning : running.Within 340) :
    ∃ r, joints last joined running k rest = .ok r := by
  induction rest generalizing last joined running k with
  | nil => exact ⟨_, rfl⟩
  | cons p rest ih =>
    obtain ⟨scene, pad⟩ := p
    have hscene : scene.InBounds := hrest _ List.mem_cons_self
    obtain ⟨duration, hduration, hduration'⟩ := hlast.transition.toDecimal
    obtain ⟨left, hleft, hleft'⟩ := hrunning.sub hduration'
    obtain ⟨offset, hoffset, hoffset'⟩ := Decimal.within_zero.greater hleft'
    obtain ⟨length, hlength, hlength'⟩ := hscene.duration.toDecimal
    obtain ⟨longer, hlonger, hlonger'⟩ := hrunning.add hlength'
    obtain ⟨next, hnext, hnext'⟩ := hlonger'.sub hduration'
    obtain ⟨⟨nodes, out⟩, hnodes⟩ :
        ∃ r, joints scene (.transition k) next (k + 1) rest = .ok r :=
      ih hscene (fun p hp => hrest p (List.mem_cons_of_mem _ hp)) hnext'
    exact ⟨_, joints_cons_eq_ok.2 ⟨_, _, _, _, _, _, nodes, hduration, hleft, hoffset,
      ⟨hduration'.isWritable (by decide), hoffset'.isWritable (by decide)⟩, hlength, hlonger,
      hnext, hnodes, rfl⟩⟩

theorem chain_succeeds {scenes : List Scene} {pads : List Pad} (hne : scenes ≠ [])
    (h : ∀ s ∈ scenes, s.InBounds) (hpads : pads.length = scenes.length) :
    ∃ r, chain scenes pads = .ok r := by
  cases scenes with
  | nil => exact absurd rfl hne
  | cons scene rest =>
    cases pads with
    | nil => cases hpads
    | cons pad pads =>
      have hscene : scene.InBounds := h _ List.mem_cons_self
      obtain ⟨running, hrunning, hrunning'⟩ := hscene.duration.toDecimal
      rw [chain_cons_of_eq_ok (Nat.succ.inj hpads) hrunning]
      refine joints_succeeds hscene (fun p hp => ?_) (hrunning'.mono (by decide))
      exact h _ (List.mem_cons_of_mem _ (List.of_mem_zip hp).1)

end Transition

end Storyboard
