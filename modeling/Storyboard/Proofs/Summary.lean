import Mathlib.Algebra.Order.Floor.Ring
import Storyboard.Proofs.Compile.Total
import Storyboard.Proofs.Number.Canonical
import Storyboard.Proofs.Number.Whole
import Storyboard.Proofs.Spec.Timeline
import Storyboard.Summary

/-!
# Storyboard.Proofs.Summary

The line of a summary that says how long a video lasts.  Its minutes are the whole minutes of the
exact duration, and only what is left after them is rounded to seconds.  Minutes and seconds
together are the rounded duration, but nothing is carried: in the last half second of a minute
the line shows sixty seconds.

* `Specification.minutesSeconds_isSplit` — what the two numbers are;
* `Specification.exists_summary_iff` — which specifications have a summary;
* `Specification.summary_duration` — the line of the duration.
-/

namespace Storyboard

open Number Decimal Spec.Field

variable {α β : Type}

/-! ## minutes and seconds -/

/-- A duration of `q` seconds in `m` minutes and `s` seconds. -/
structure IsSplit (q : ℚ) (m s : ℤ) : Prop where
  minutes : m = ⌊q / 60⌋
  rounded : 60 * m + s = ⌊q + 1 / 2⌋
  minutes_nonneg : 0 ≤ m
  seconds_nonneg : 0 ≤ s
  seconds_le : s ≤ 60
  /-- The seconds are as many as a minute has when half a second or less is missing to it. -/
  seconds_full : s = 60 ↔ 60 * m + 59 + 1 / 2 ≤ q

theorem isSplit_floor {q : ℚ} (hq : 0 ≤ q) :
    IsSplit q ⌊q / 60⌋ ⌊q - 60 * ⌊q / 60⌋ + 1 / 2⌋ := by
  obtain ⟨m, hm⟩ : ∃ m, m = ⌊q / 60⌋ := ⟨_, rfl⟩
  have hlow : (60 * m : ℚ) ≤ q := by
    have hle := Int.floor_le (q / 60)
    rw [← hm, le_div_iff₀ (by norm_num)] at hle
    linarith
  have hhigh : q < 60 * m + 60 := by
    have hlt := Int.lt_floor_add_one (q / 60)
    rw [← hm, div_lt_iff₀ (by norm_num)] at hlt
    linarith
  have hrest : (60 * m : ℚ) = (60 * m : ℤ) := by push_cast; rfl
  rw [← hm]
  refine ⟨hm, ?rounded, ?minutes, ?low, ?high, ?full⟩
  case rounded =>
    have hsplit : q + 1 / 2 = q - 60 * m + 1 / 2 + (60 * m : ℤ) := by rw [← hrest]; ring
    rw [hsplit, Int.floor_add_intCast, add_comm]
  case minutes =>
    rw [hm]
    exact Int.floor_nonneg.2 (by positivity)
  case low => exact Int.floor_nonneg.2 (by linarith)
  case high => exact Int.lt_add_one_iff.1 (Int.floor_lt.2 (by push_cast; linarith))
  case full =>
    rw [Int.floor_eq_iff]
    push_cast
    constructor
    · rintro ⟨hle, -⟩
      linarith
    · intro hle
      constructor <;> linarith

/-! ## what can be written -/

theorem exists_mapM {f : α → Except Fault β} {as : List α} (h : ∀ a ∈ as, ∃ b, f a = .ok b) :
    ∃ bs, as.mapM f = .ok bs := by
  induction as with
  | nil => exact ⟨[], rfl⟩
  | cons a rest ih =>
    obtain ⟨⟨b, hb⟩, hrest⟩ := List.forall_mem_cons.1 h
    obtain ⟨bs, hbs⟩ := ih hrest
    rw [List.mapM_cons]
    exact ⟨b :: bs, bind_eq_ok.2 ⟨b, hb, bind_eq_ok.2 ⟨bs, hbs, rfl⟩⟩⟩

/-- Every number of a specification is written as a time, also one that is not finite. -/
theorem Spec.Field.InRange.numberText {range : Range} {v : Value} (h : InRange range v) :
    ∃ s, v.numberText = .ok s := by
  obtain ⟨x, hx, -⟩ := h
  cases v with
  | int i => exact ⟨_, rfl⟩
  | float x => exact ⟨_, Value.numberText_float x⟩
  | _ => cases hx

theorem Spec.Field.IsRate.rateText_iff {v : Value} (h : IsRate v) :
    (∃ s, v.rateText = .ok s) ↔ v.IsWritable := by
  by_cases hwritable : v.IsWritable
  · refine iff_of_true ?_ hwritable
    rcases h with ⟨q, rfl, -⟩ | hrange
    · exact exists_ratioText (hwritable q rfl).1 (hwritable q rfl).2
    · obtain ⟨t, ht⟩ := hrange.numberText
      obtain ⟨x, hx, -⟩ := hrange
      cases v with
      | int i | float x => exact ⟨t, ht⟩
      | _ => cases hx
  · refine iff_of_false ?_ hwritable
    simp only [Value.IsWritable, not_forall] at hwritable
    obtain ⟨q, rfl, hlong⟩ := hwritable
    rintro ⟨s, hs⟩
    cases (ratioText_of_long hlong).symm.trans hs

theorem Layer.Accepted.shortKind {l : Layer} (h : l.Accepted) : ∃ s, l.shortKind = .ok s := by
  cases h <;> exact ⟨_, rfl⟩

/-- An integer that can be written; the limit on the digits of one is that of `plainText`. -/
def Value.IsShort (v : Value) : Prop := ∀ i, v = .int i → i.natAbs < tens digitLimit

theorem Value.isShort_int {i : ℤ} {k : Nat} (h : i.natAbs < tens k) (hk : k ≤ digitLimit) :
    (Value.int i).IsShort := by
  rintro j ⟨⟩
  exact h.trans_le (tens_le_tens hk)

theorem Spec.Field.WholeInRange.plainText_iff {range : Range} {v : Value}
    (h : WholeInRange range v) : (∃ s, v.plainText = .ok s) ↔ v.IsShort := by
  obtain ⟨i, rfl, -⟩ := h
  rw [Value.plainText_int, integerText]
  split
  · next hshort => exact iff_of_true ⟨_, rfl⟩ (by rintro j ⟨⟩; exact hshort)
  · next hlong => exact iff_of_false (by rintro ⟨s, ⟨⟩⟩) fun hshort => hlong (hshort i rfl)

theorem Spec.Field.WholeInRange.isShort {v : Value} (h : WholeInRange (.upTo 51) v) :
    v.IsShort := by
  obtain ⟨i, rfl, hlow, hhigh⟩ := h.upTo
  have htwo : tens 2 = 100 := rfl
  exact Value.isShort_int (by omega) (by decide : 2 ≤ digitLimit)

/-- An output whose size and rate can be written. -/
structure Output.IsWritable (o : Output) : Prop where
  width : o.width.IsShort
  height : o.height.IsShort
  fps : o.fps.IsWritable

theorem Output.isWritable_default : Output.IsWritable {} where
  width := Value.isShort_int (k := 4) (by decide) (by decide)
  height := Value.isShort_int (k := 4) (by decide) (by decide)
  fps := nofun

namespace Specification

variable {spec : Specification} {total : Decimal} {lines : List String} {m s : ℤ}

/-! ## the duration -/

/-- A time that is not rounded is split as its value is. -/
theorem minutesSeconds_isSplit {q : ℚ} (htotal : total.toRat? = some q) (hq : 0 ≤ q)
    (hmicro : IsMicro q) (hsmall : q < 10 ^ 28) :
    ∃ m s, minutesSeconds total = .ok (m, s) ∧ IsSplit q m s := by
  have hsixty : 60 < tens 22 := by decide
  obtain ⟨whole, hwhole, hminutes⟩ := toInt_quot (k := 60) (by decide) htotal hq hsmall
  obtain ⟨rest, hrest, hvalue⟩ := toRat?_rem (by decide) htotal hq hsmall hmicro hsixty
  refine ⟨_, _, ?_, isSplit_floor hq⟩
  rw [← roundHalfUp_eq]
  exact bind_eq_ok.2 ⟨whole, hwhole, bind_eq_ok.2 ⟨_, hminutes,
    bind_eq_ok.2 ⟨rest, hrest, bind_eq_ok.2 ⟨_, ratioOfDecimal_eq hvalue, rfl⟩⟩⟩⟩

/-- How long the scenes last together; transitions are not taken off. -/
def runningTime (spec : Specification) : ℚ := (spec.scenes.map Scene.length).sum

/-- The total is exact if the durations are. -/
theorem totalDuration_of_lengths (haccepted : spec.Accepted)
    (hmicro : ∀ s ∈ spec.scenes, s.duration.InMillionths) (hsmall : spec.runningTime < 10 ^ 20) :
    ∃ total, spec.totalDuration = .ok total ∧ total.toRat? = some spec.runningTime := by
  have hlengths (s : Scene) (hs : s ∈ spec.scenes) : s.duration.IsTime ∧ IsMicro s.length :=
    ⟨Value.isTime_of_inRange (haccepted.scene s hs).duration (hmicro s hs),
      (hmicro s hs).isMicro⟩
  obtain ⟨total, htotal, hvalue⟩ :=
    Scene.totalFrom_of_lengths .zero hlengths (by rwa [abs_zero, zero_add]) toRat?_zero
  exact ⟨total, htotal, by rw [hvalue, zero_add, runningTime]⟩

theorem runningTime_nonneg (haccepted : spec.Accepted)
    (hmicro : ∀ s ∈ spec.scenes, s.duration.InMillionths) : 0 ≤ spec.runningTime := by
  refine List.sum_nonneg fun q hq => ?_
  obtain ⟨s, hs, rfl⟩ := List.mem_map.1 hq
  exact (Value.isTime_of_inRange (haccepted.scene s hs).duration (hmicro s hs)).nonneg

theorem isMicro_runningTime (hmicro : ∀ s ∈ spec.scenes, s.duration.InMillionths) :
    IsMicro spec.runningTime := by
  obtain ⟨scenes⟩ := spec
  rw [runningTime]
  induction scenes with
  | nil => exact .zero
  | cons s rest ih =>
    obtain ⟨hs, hrest⟩ := List.forall_mem_cons.1 hmicro
    rw [List.map_cons, List.sum_cons]
    exact hs.isMicro.add (ih hrest)

/-- A time that is split can be written. -/
theorem written_of_minutesSeconds (h : minutesSeconds total = .ok (m, s)) :
    total.written = .ok total := by
  obtain ⟨quotient, hquot, -⟩ := bind_eq_ok.1 h
  exact written_eq_ok.2 ⟨isWritable_of_quot (by decide) (by decide) hquot, rfl⟩

/-! ## lines -/

theorem exists_sceneLine {scene : Scene} (h : scene.Accepted) (i : Nat) :
    ∃ line, sceneLine i scene = .ok line := by
  obtain ⟨kinds, hkinds⟩ := exists_mapM fun l hl => (h.layers l hl).shortKind
  obtain ⟨text, htext⟩ := h.duration.numberText
  exact ⟨_, bind_eq_ok.2 ⟨kinds, hkinds, bind_eq_ok.2 ⟨text, htext, rfl⟩⟩⟩

theorem exists_trackLine {track : AudioTrack} (h : track.Accepted) (i : Nat) :
    ∃ line, trackLine i track = .ok line := by
  obtain ⟨text, htext⟩ := h.volume.numberText
  exact ⟨_, bind_eq_ok.2 ⟨text, htext, rfl⟩⟩

theorem exists_numbered {line : Nat → α → Except Fault String} {as : List α} {i : Nat}
    (h : ∀ a ∈ as, ∀ i, ∃ text, line i a = .ok text) : ∃ texts, numbered line i as = .ok texts := by
  induction as generalizing i with
  | nil => exact ⟨[], rfl⟩
  | cons a rest ih =>
    obtain ⟨ha, hrest⟩ := List.forall_mem_cons.1 h
    obtain ⟨text, htext⟩ := ha i
    obtain ⟨texts, htexts⟩ := @ih (i + 1) hrest
    exact ⟨text :: texts, bind_eq_ok.2 ⟨text, htext, bind_eq_ok.2 ⟨texts, htexts, rfl⟩⟩⟩

/-- A specification has a summary if the numbers of its output can be written, and if its
duration has one. -/
theorem exists_summary_iff (haccepted : spec.Accepted) (htotal : spec.totalDuration = .ok total)
    (hsplit : minutesSeconds total = .ok (m, s)) :
    (∃ lines, spec.summary = .ok lines) ↔ spec.output.IsWritable := by
  have houtput := haccepted.output
  have hwidth := houtput.width.plainText_iff
  have hheight := houtput.height.plainText_iff
  have hrate := houtput.fps.rateText_iff
  constructor
  · rintro ⟨lines, h⟩
    obtain ⟨total', -, h⟩ := bind_eq_ok.1 h
    obtain ⟨split, -, h⟩ := bind_eq_ok.1 h
    obtain ⟨shown, -, h⟩ := bind_eq_ok.1 h
    obtain ⟨width, hw, h⟩ := bind_eq_ok.1 h
    obtain ⟨height, hh, h⟩ := bind_eq_ok.1 h
    obtain ⟨rate, hr, h⟩ := bind_eq_ok.1 h
    exact ⟨hwidth.1 ⟨width, hw⟩, hheight.1 ⟨height, hh⟩, hrate.1 ⟨rate, hr⟩⟩
  · intro hwritable
    obtain ⟨width, hw⟩ := hwidth.2 hwritable.width
    obtain ⟨height, hh⟩ := hheight.2 hwritable.height
    obtain ⟨rate, hr⟩ := hrate.2 hwritable.fps
    obtain ⟨crf, hc⟩ := houtput.crf.plainText_iff.2 houtput.crf.isShort
    obtain ⟨scenes, hscenes⟩ := exists_numbered (i := 1) fun scene hs =>
      exists_sceneLine (haccepted.scene scene hs)
    obtain ⟨tracks, htracks⟩ := exists_numbered (i := 1) fun track ht =>
      exists_trackLine (haccepted.audio.tracks track ht)
    exact ⟨_, bind_eq_ok.2 ⟨total, htotal, bind_eq_ok.2 ⟨(m, s), hsplit, bind_eq_ok.2 ⟨total,
      written_of_minutesSeconds hsplit, bind_eq_ok.2 ⟨width, hw, bind_eq_ok.2 ⟨height, hh,
        bind_eq_ok.2 ⟨rate, hr, bind_eq_ok.2 ⟨crf, hc, bind_eq_ok.2 ⟨scenes, hscenes,
          bind_eq_ok.2 ⟨tracks, htracks, rfl⟩⟩⟩⟩⟩⟩⟩⟩⟩⟩

/-- The line of the duration: minutes, seconds, and the exact number in brackets. -/
def durationLine (m s : ℤ) (exact : String) : String :=
  "Duration:    " ++ m.repr ++ "m " ++ s.repr ++ "s (" ++ exact ++ "s)"

theorem toList_durationLine (m s : ℤ) (exact : String) : (durationLine m s exact).toList
    = "Duration:    ".toList ++ (m.repr.toList ++ 'm' :: (' ' ::
        (s.repr.toList ++ 's' :: (" (".toList ++ (exact.toList ++ "s)".toList))))) := by
  have hminutes : "m ".toList = ['m', ' '] := rfl
  have hseconds : "s (".toList = 's' :: " (".toList := rfl
  unfold durationLine
  generalize m.repr = minutes, s.repr = seconds
  simp only [String.toList_append, List.append_assoc, hminutes, hseconds, List.cons_append,
    List.nil_append]

/-- The minutes and the seconds can be told from the line. -/
theorem durationLine_inj {m' s' : ℤ} {n n' : String}
    (h : durationLine m s n = durationLine m' s' n') : m = m' ∧ s = s' := by
  have hlists := congrArg String.toList h
  rw [toList_durationLine, toList_durationLine] at hlists
  obtain ⟨hm, hrest⟩ := append_inj_of_notMem (notMem_repr m (by decide))
    (notMem_repr m' (by decide)) (List.append_cancel_left hlists)
  obtain ⟨hs, -⟩ := append_inj_of_notMem (notMem_repr s (by decide))
    (notMem_repr s' (by decide)) (List.cons.inj hrest).2
  exact ⟨repr_injective (String.toList_inj.1 hm), repr_injective (String.toList_inj.1 hs)⟩

theorem durationLine_of_summary (htotal : spec.totalDuration = .ok total)
    (hsplit : minutesSeconds total = .ok (m, s)) (h : spec.summary = .ok lines) :
    lines[3]? = some (durationLine m s total.shortText) := by
  obtain ⟨total', htotal', h⟩ := bind_eq_ok.1 h
  obtain rfl := Except.ok.inj (htotal.symm.trans htotal')
  obtain ⟨split, hsplit', h⟩ := bind_eq_ok.1 h
  obtain rfl := Except.ok.inj (hsplit.symm.trans hsplit')
  obtain ⟨shown, hshown, h⟩ := bind_eq_ok.1 h
  obtain rfl := Except.ok.inj ((written_of_minutesSeconds hsplit).symm.trans hshown)
  obtain ⟨width, -, h⟩ := bind_eq_ok.1 h
  obtain ⟨height, -, h⟩ := bind_eq_ok.1 h
  obtain ⟨rate, -, h⟩ := bind_eq_ok.1 h
  obtain ⟨crf, -, h⟩ := bind_eq_ok.1 h
  obtain ⟨scenes, -, h⟩ := bind_eq_ok.1 h
  obtain ⟨tracks, -, h⟩ := bind_eq_ok.1 h
  obtain rfl := pure_eq_ok.1 h
  rfl

/-- The duration in the summary of a specification that is read, if its durations are whole
numbers of millionths and not rounded when they are added up. -/
theorem summary_duration {data : Value} (h : ofValue data = .ok spec)
    (hmicro : ∀ s ∈ spec.scenes, s.duration.InMillionths) (hsmall : spec.runningTime < 10 ^ 20) :
    ((∃ lines, spec.summary = .ok lines) ↔ spec.output.IsWritable) ∧
    ∃ m s n, IsSplit spec.runningTime m s ∧ Numeral.Denotes n spec.runningTime ∧
      ∀ lines, spec.summary = .ok lines → lines[3]? = some (durationLine m s n) := by
  have haccepted := accepted_of_ofValue h
  have hisMicro := isMicro_runningTime hmicro
  obtain ⟨total, htotal, hvalue⟩ := totalDuration_of_lengths haccepted hmicro hsmall
  obtain ⟨m, s, hok, hsplit⟩ := minutesSeconds_isSplit hvalue
    (runningTime_nonneg haccepted hmicro) hisMicro (hsmall.trans (by norm_num))
  exact ⟨exists_summary_iff haccepted htotal hok, m, s, total.shortText, hsplit,
    Numeral.denotes_shortText hvalue hisMicro, fun lines => durationLine_of_summary htotal hok⟩

/-- A document whose scenes last for a minute and for two and a half seconds. -/
def minuteFilm : Value :=
  .map [("scenes", .list [.map [("id", "sky"), ("duration", 60)],
    .map [("id", "sea"), ("duration", 2.5)]])]

/-- What is read from it. -/
def minute : Specification where
  scenes := [{ id := "sky", duration := 60 }, { id := "sea", duration := 2.5 }]

theorem ofValue_minuteFilm : ofValue minuteFilm = .ok minute := by
  with_unfolding_all rfl

theorem summary_minuteFilm : ∃ lines n, ofValue minuteFilm = .ok minute ∧
    (∀ s ∈ minute.scenes, s.duration.InMillionths) ∧ minute.runningTime = 125 / 2 ∧
    minute.summary = .ok lines ∧ lines[3]? = some (durationLine 1 3 n) ∧
    Numeral.Denotes n (125 / 2) := by
  have htime : minute.runningTime = 125 / 2 := by
    simp [minute, runningTime, Scene.length, Value.seconds_five_halves]
    norm_num
  have hmicro : ∀ s ∈ minute.scenes, s.duration.InMillionths := by
    have hlong : Value.InMillionths 2.5 := ⟨_, Value.seconds?_five_halves, 2500000, by norm_num⟩
    simp [minute, hlong]
  obtain ⟨hexists, m, s, n, hsplit, hn, hline⟩ :=
    summary_duration ofValue_minuteFilm hmicro (by rw [htime]; norm_num)
  obtain ⟨lines, hlines⟩ := hexists.2 Output.isWritable_default
  rw [htime] at hsplit hn
  obtain rfl : m = 1 := hsplit.minutes.trans (by norm_num [Int.floor_eq_iff])
  obtain rfl : s = 3 := by
    have hrounded := hsplit.rounded
    have hfloor : ⌊(125 / 2 + 1 / 2 : ℚ)⌋ = 63 := by norm_num [Int.floor_eq_iff]
    omega
  exact ⟨lines, n, ofValue_minuteFilm, hmicro, htime, hlines, hline lines hlines, hn⟩

theorem seconds?_late : Value.seconds? 59.5 = some (119 / 2) := by
  have hshort : Double.shortest 8373880557142016 (-47) = (595, -1) := by
    rw [@Double.shortest_of_firstPlace _ 341 _ (by decide +kernel) (by decide +kernel)]
    decide +kernel
  have hparts : (59.5 : Value) = .float (.finite false 8373880557142016 (-47) (by decide)) := by
    with_unfolding_all rfl
  rw [hparts, Value.seconds?_of_shortest _ (by decide) hshort]
  decide +kernel

/-- A document whose scene lasts for half a second less than a minute. -/
def lateFilm : Value :=
  .map [("scenes", .list [.map [("id", "sky"), ("duration", 59.5)]])]

/-- What is read from it. -/
def late : Specification where
  scenes := [{ id := "sky", duration := 59.5 }]

theorem ofValue_lateFilm : ofValue lateFilm = .ok late := by
  with_unfolding_all rfl

/-- Half a second before a minute is over the seconds are sixty, so that they are not below. -/
theorem summary_lateFilm : ofValue lateFilm = .ok late ∧
    (∀ s ∈ late.scenes, s.duration.InMillionths) ∧ late.runningTime = 119 / 2 ∧
    ∃ lines, late.summary = .ok lines ∧ lines[3]? = some "Duration:    0m 60s (59.5s)" ∧
      ∀ m s n, s ≤ 59 → lines[3]? ≠ some (durationLine m s n) := by
  have htime : late.runningTime = 119 / 2 := by
    simp [late, runningTime, Scene.length, Value.seconds, seconds?_late]
  have hmicro : ∀ s ∈ late.scenes, s.duration.InMillionths := by
    have hlate : Value.InMillionths 59.5 := ⟨_, seconds?_late, 59500000, by norm_num⟩
    simp [late, hlate]
  have haccepted := accepted_of_ofValue ofValue_lateFilm
  obtain ⟨total, htotal, hvalue⟩ :=
    totalDuration_of_lengths haccepted hmicro (by rw [htime]; norm_num)
  rw [htime] at hvalue
  obtain ⟨m, s, hok, hsplit⟩ := minutesSeconds_isSplit hvalue (by norm_num)
    ⟨59500000, by norm_num⟩ (by norm_num)
  obtain rfl : m = 0 := hsplit.minutes.trans (by norm_num [Int.floor_eq_iff])
  obtain rfl : s = 60 := hsplit.seconds_full.2 (by norm_num)
  obtain ⟨lines, hlines⟩ := (exists_summary_iff haccepted htotal hok).2 Output.isWritable_default
  obtain ⟨k, hk, htext⟩ := shortText_eq hvalue
  obtain rfl : k = 59500000 := hk.unique (.of_eq (by norm_num))
  have hline : lines[3]? = some "Duration:    0m 60s (59.5s)" := by
    rw [durationLine_of_summary htotal hok hlines, htext]
    decide
  refine ⟨ofValue_lateFilm, hmicro, htime, lines, hlines, hline, fun m s n hs heq => ?_⟩
  have hshown : durationLine 0 60 "59.5" = durationLine m s n :=
    Option.some.inj (hline.symm.trans heq)
  exact absurd (durationLine_inj hshown).2 (by omega)

end Specification

end Storyboard
