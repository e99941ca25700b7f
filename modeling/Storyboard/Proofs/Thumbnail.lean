import Storyboard.Proofs.Compile.Audibility
import Storyboard.Proofs.Compile.Total
import Storyboard.Proofs.Number.Canonical
import Storyboard.Proofs.Program.Files
import Storyboard.Proofs.Spec.Timeline
import Storyboard.Thumbnail

/-!
# Storyboard.Proofs.Thumbnail

The time at which the frame for a thumbnail is taken.  Counted from the start of the video it is
never negative.  Counted from the start of a scene it is not, as long as that start is no further
before the video than the timestamp; but nothing keeps it there, since transitions are taken off a
start however long they are.

* `Scene.startFrom_succeeds`, `Scene.toRat?_of_startFrom` — the start of a scene;
* `Scene.startAt_nonneg` — which scenes do not start before the video;
* `Specification.countsFrom` — the time of a thumbnail that counts from a scene;
* `Specification.thumbnail_time` — the time in both modes, and the command that it is for.
-/

namespace Storyboard

open Number Decimal Spec.Field

/-! ## times by their texts -/

namespace Value

variable {v : Value} {d : Decimal} {q : ℚ}

/-- A number of seconds that can be read from its text is read as what it stands for. -/
theorem toRat?_of_toDecimalByText (hq : v.seconds? = some q) (hd : v.toDecimalByText = .ok d) :
    d.toRat? = some q := by
  cases v with
  | int i =>
    obtain rfl := Option.some.inj hq
    by_cases hshort : i.natAbs < tens digitLimit
    · obtain rfl := Except.ok.inj ((toDecimalByText_int hshort).symm.trans hd)
      exact toRat?_ofInt i
    · obtain ⟨text, htext, -⟩ := bind_eq_ok.1 hd
      rw [plainText_int, integerText, if_neg hshort] at htext
      cases htext
  | float x =>
    obtain rfl := Except.ok.inj ((toDecimalByText_float (isFinite_of_seconds? hq)).symm.trans hd)
    exact hq
  | _ => cases hq

theorem InBounds.toDecimalByText (h : v.InBounds) :
    ∃ d, v.toDecimalByText = .ok d ∧ d.Within 310 := by
  obtain ⟨d, hd, hwithin⟩ := h.toDecimal
  obtain ⟨q, hq, hle⟩ := h
  cases v with
  | int i =>
    obtain rfl := Option.some.inj hq
    have hlimit : 308 < digitLimit := by decide
    have hshort : i.natAbs < tens digitLimit := Decimal.natAbs_lt hle hlimit
    exact ⟨d, (toDecimalByText_int hshort).trans hd, hwithin⟩
  | float x =>
    have hfinite : x.isFinite = true := by
      cases x with
      | finite negative m e h => rfl
      | infinite negative => cases hq
      | nan => cases hq
    exact ⟨d, (toDecimalByText_float hfinite).trans hd, hwithin⟩
  | _ => cases hq

theorem exists_seconds? {range : Range} (h : InRange range v) (hv : v.isFinite = true) :
    ∃ q, v.seconds? = some q :=
  (nothingOrSeconds_of_inRangeOrNull (.inr h) hv).resolve_left (ne_null_of_inRange h)

end Value

/-! ## the start of a scene -/

namespace Scene

variable {s : Scene} {rest scenes : List Scene} {start d : Decimal} {id : String} {k : Nat}

/-- A walk is at its end at the scene that it looks for, or goes on to the scenes after it. -/
theorem startFrom_cons_eq_ok : startFrom start id (s :: rest) = .ok d ↔
    s.id = id ∧ start = d ∨ s.id ≠ id ∧ rest ≠ [] ∧
      ∃ length stop overlap next, s.duration.toDecimalByText = .ok length ∧
        start.add length = .ok stop ∧ s.transition.duration.toDecimalByText = .ok overlap ∧
        stop.sub overlap = .ok next ∧ startFrom next id rest = .ok d := by
  rw [startFrom]
  by_cases hid : s.id = id
  · rw [if_pos hid]
    simp [hid]
  · rw [if_neg hid]
    cases rest with
    | nil =>
      refine iff_of_false (fun h => ?_) (by simp [hid])
      obtain ⟨length, -, h⟩ := bind_eq_ok.1 h
      obtain ⟨stop, -, h⟩ := bind_eq_ok.1 h
      cases h
    | cons s' rest => simp [bind_eq_ok, hid]

/-- The start of a scene is finite if the times before it are. -/
theorem toRat?_of_startFrom {q : ℚ} (hscenes : ∀ s ∈ scenes, (∃ q, s.duration.seconds? = some q) ∧
      ∃ q, s.transition.duration.seconds? = some q)
    (hstart : start.toRat? = some q) (h : startFrom start id scenes = .ok d) :
    ∃ p, d.toRat? = some p := by
  induction scenes generalizing start q with
  | nil => cases h
  | cons s rest ih =>
    obtain ⟨⟨⟨p, hp⟩, r, hr⟩, hrest⟩ := List.forall_mem_cons.1 hscenes
    obtain ⟨-, rfl⟩ | ⟨-, -, length, stop, overlap, next, hlength, hstop, hoverlap, hnext, h⟩ :=
      startFrom_cons_eq_ok.1 h
    · exact ⟨q, hstart⟩
    · obtain ⟨_, hstop⟩ := toRat?_of_add hstart (Value.toRat?_of_toDecimalByText hp hlength) hstop
      obtain ⟨_, hnext⟩ := toRat?_of_sub hstop (Value.toRat?_of_toDecimalByText hr hoverlap) hnext
      exact ih hrest hnext h

/-- The start of a scene that is there comes about, however many scenes are before it. -/
theorem startFrom_succeeds (hscenes : ∀ s ∈ scenes, s.InBounds) (hid : id ∈ scenes.map Scene.id)
    (hstart : start.Within 340) : ∃ d, startFrom start id scenes = .ok d ∧ d.Within 340 := by
  induction scenes generalizing start with
  | nil => cases hid
  | cons s rest ih =>
    obtain ⟨hs, hrest⟩ := List.forall_mem_cons.1 hscenes
    by_cases heq : s.id = id
    · exact ⟨start, startFrom_cons_eq_ok.2 (.inl ⟨heq, rfl⟩), hstart⟩
    · have hid' : id ∈ rest.map Scene.id := (List.mem_cons.1 hid).resolve_left (Ne.symm heq)
      have hne : rest ≠ [] := by
        rintro rfl
        cases hid'
      obtain ⟨length, hlength, hlength'⟩ := hs.duration.toDecimalByText
      obtain ⟨stop, hstop, hstop'⟩ := hstart.add hlength'
      obtain ⟨overlap, hoverlap, hoverlap'⟩ := hs.transition.toDecimalByText
      obtain ⟨next, hnext, hnext'⟩ := hstop'.sub hoverlap'
      obtain ⟨d, hd, hwithin⟩ := ih hrest hid' hnext'
      exact ⟨d, startFrom_cons_eq_ok.2 (.inr ⟨heq, hne, length, stop, overlap, next, hlength, hstop,
        hoverlap, hnext, hd⟩), hwithin⟩

/-- If no transition before a scene is longer than the scene that it ends, the scene does not start
before the video. -/
theorem startAt_nonneg (h : ∀ s ∈ scenes.take k, s.overlap ≤ s.length) : 0 ≤ startAt scenes k := by
  refine List.sum_nonneg fun q hq => ?_
  obtain ⟨s, hs, rfl⟩ := List.mem_map.1 hq
  exact sub_nonneg.2 (h s hs)

end Scene

/-! ## the time of a thumbnail -/

namespace Specification

variable {spec : Specification} {data : Value} {scene : String} {timestamp : Value} {k : Nat}
  {time d : Decimal}

theorem thumbnailTime_absolute (hsource : spec.thumbnail.source = .frame scene timestamp)
    (htime : timestamp.toDecimal = .ok time) : spec.thumbnailTime "absolute" = .ok time := by
  rw [thumbnailTime, hsource]
  exact bind_eq_ok.2 ⟨.absolute, rfl, bind_eq_ok.2 ⟨time, htime, rfl⟩⟩

theorem thumbnailTime_of_unknown (hsource : spec.thumbnail.source = .frame scene timestamp)
    (htime : timestamp.toDecimal = .ok time) (hscene : spec.scene? scene = none) :
    spec.thumbnailTime "scene" = .ok time := by
  rw [thumbnailTime, hsource]
  refine bind_eq_ok.2 ⟨.scene, rfl, bind_eq_ok.2 ⟨time, htime, ?_⟩⟩
  simp only [hscene, Option.isNone_none, Bool.or_true, if_true]
  rfl

theorem thumbnailTime_of_known {s : Scene}
    (hsource : spec.thumbnail.source = .frame scene timestamp)
    (htime : timestamp.toDecimal = .ok time) (hscene : spec.scene? scene = some s)
    (hne : scene ≠ "") :
    spec.thumbnailTime "scene" = .ok d ↔
      ∃ start, spec.sceneStart scene = .ok start ∧ start.add time = .ok d := by
  have hmode : TimestampMode.ofName "scene" = .ok .scene := rfl
  rw [thumbnailTime, hsource, ← bind_eq_ok]
  simp only [hmode, htime, hscene, Option.isNone_some, Bool.or_false, decide_eq_true_eq, if_neg hne]
  rfl

/-- A mode in which there is a time is one of two. -/
theorem mode_of_thumbnailTime {mode : String} (h : spec.thumbnailTime mode = .ok d) :
    mode = "absolute" ∨ mode = "scene" := by
  obtain ⟨m, hm, -⟩ := bind_eq_ok.1 h
  unfold TimestampMode.ofName at hm
  split at hm
  · exact .inl rfl
  · exact .inr rfl
  · cases hm

/-- The time of a thumbnail that is `t` seconds after the start of scene `k`, which may be before
the video. -/
structure CountsFrom (spec : Specification) (k : Nat) (id : String) (t : ℚ) : Prop where
  /-- However the times are rounded, one that starts late enough is not negative. -/
  sign : ∀ d, spec.thumbnailTime "scene" = .ok d → ∃ start p q,
    spec.sceneStart id = .ok start ∧ start.toRat? = some p ∧ d.toRat? = some q ∧
      (0 ≤ p + t → 0 ≤ q)
  succeeds : (∀ v ∈ spec.values, v.IsOrdinary) → ∃ d, spec.thumbnailTime "scene" = .ok d
  exact : Scene.HasExactTimes spec.scenes → IsMicro t → t < 10 ^ 20 →
    ∃ d, spec.thumbnailTime "scene" = .ok d ∧ d.toRat? = some (Scene.startAt spec.scenes k + t)

/-- A command that takes a frame at `q` seconds writes them to the nearest millionth. -/
def SeeksTo (q : ℚ) (command : List String) : Prop :=
  ∃ (n : Numeral) (m : Int) (rest : List String),
    command = "ffmpeg" :: "-y" :: "-ss" :: n.text :: rest ∧
      n.value = m / 10 ^ 6 ∧ IsNearestMicro q m ∧ (0 ≤ q → 0 ≤ n.value)

theorem seeksTo_of_frame {video outfile : String} {width height : Value} {command : List String}
    {q : ℚ} (hd : d.toRat? = some q)
    (h : Command.frame video (.decimal d) outfile width height = .ok command) :
    SeeksTo q command := by
  obtain ⟨text, htext, h⟩ := bind_eq_ok.1 h
  obtain ⟨size, -, h⟩ := bind_eq_ok.1 h
  obtain rfl := pure_eq_ok.1 h
  obtain ⟨d', ⟨⟩, -, rfl⟩ := Value.numberText_eq_ok.1 htext
  obtain ⟨m, hm, hshort⟩ := shortText_eq hd
  refine ⟨.ofMicro m, m, _, by rw [hshort]; rfl, Numeral.value_ofMicro m, hm, fun hq => ?_⟩
  have hzero : IsNearestMicro 0 0 := .of_eq (by norm_num)
  have hnonneg : (0 : ℚ) ≤ m := by exact_mod_cast hzero.mono hm hq
  rw [Numeral.value_ofMicro]
  positivity

/-- The first command that makes a thumbnail takes the frame at its time. -/
theorem frame_of_planThumbnail {video outfile base mode : String} {w : Workspace}
    {commands : List (List String)} (hsource : spec.thumbnail.source = .frame scene timestamp)
    (h : (spec.planThumbnail (some video) outfile base mode).result w = .ok commands) :
    ∃ d command more, spec.thumbnailTime mode = .ok d ∧ commands = command :: more ∧
      Command.frame video (.decimal d) (Path.stem outfile ++ "_frame.png") spec.thumbnail.width
        spec.thumbnail.height = .ok command := by
  unfold planThumbnail at h
  simp only [hsource] at h
  split at h
  · obtain ⟨d, hd, h⟩ := Action.result_bind_eq_ok.1 h
    obtain ⟨command, hcommand, h⟩ := Action.result_bind_eq_ok.1 h
    obtain ⟨decorate, -, h⟩ := Action.result_bind_eq_ok.1 h
    rw [Action.result_lift] at hd hcommand
    obtain rfl := Except.ok.inj h
    exact ⟨d, command, _, hd, rfl, hcommand⟩
  · obtain ⟨_, hthrow, -⟩ := Action.result_bind_eq_ok.1 h
    cases hthrow

/-- The timestamp of a frame is a time from zero on. -/
theorem inRange_timestamp (haccepted : spec.Accepted)
    (hsource : spec.thumbnail.source = .frame scene timestamp) :
    InRange .fromZero timestamp ∧ timestamp ∈ spec.values := by
  have hvalue : timestamp ∈ spec.thumbnail.source.values := by
    rw [hsource]
    exact List.mem_singleton_self _
  refine ⟨?_, by simp [values, Thumbnail.values, hvalue]⟩
  have hsource' := haccepted.thumbnail.source
  rw [hsource] at hsource'
  cases hsource' with
  | frame _ hrange => exact hrange

theorem exists_timestamp (haccepted : spec.Accepted)
    (hfinite : ∀ v ∈ spec.values, v.isFinite = true)
    (hsource : spec.thumbnail.source = .frame scene timestamp) :
    ∃ time, timestamp.toDecimal = .ok time ∧ time.toRat? = some timestamp.seconds ∧
      0 ≤ timestamp.seconds := by
  obtain ⟨hrange, hvalue⟩ := inRange_timestamp haccepted hsource
  have hseconds : timestamp.NothingOrSeconds :=
    Value.nothingOrSeconds_of_inRangeOrNull (.inr hrange) (hfinite _ hvalue)
  obtain ⟨time, htime⟩ := hseconds.exists_toDecimal (Value.ne_null_of_inRange hrange)
  exact ⟨time, htime, hseconds.toRat? htime, hseconds.nonneg hrange⟩

theorem exists_seconds_of_mem (haccepted : spec.Accepted)
    (hfinite : ∀ v ∈ spec.values, v.isFinite = true) {s : Scene} (hs : s ∈ spec.scenes) :
    (∃ q, s.duration.seconds? = some q) ∧ ∃ q, s.transition.duration.seconds? = some q := by
  have hvalues {v : Value} (hv : v ∈ s.values) : v.isFinite = true :=
    hfinite v (by simp [values, List.mem_flatMap.2 ⟨s, hs, hv⟩])
  exact ⟨Value.exists_seconds? (haccepted.scene s hs).duration (hvalues (by simp [Scene.values])),
    Value.exists_seconds? (haccepted.scene s hs).transition.duration
      (hvalues (by simp [Scene.values]))⟩

theorem countsFrom (haccepted : spec.Accepted) (hfinite : ∀ v ∈ spec.values, v.isFinite = true)
    (hsource : spec.thumbnail.source = .frame scene timestamp)
    (hk : k < spec.scenes.length) (hid : spec.scenes[k].id = scene) :
    spec.CountsFrom k scene timestamp.seconds := by
  obtain ⟨time, htime, ht, hnonneg⟩ := exists_timestamp haccepted hfinite hsource
  have hmem : spec.scenes[k] ∈ spec.scenes := List.getElem_mem hk
  have hknown (d : Decimal) := thumbnailTime_of_known (d := d) hsource htime
    (hid ▸ scene?_of_mem haccepted.ids hmem) (hid ▸ (haccepted.scene _ hmem).id)
  refine ⟨fun d hd => ?sign, fun hordinary => ?succeeds, fun hexact hmicro hsmall => ?exact⟩
  case sign =>
    obtain ⟨start, hstart, hadd⟩ := (hknown d).1 hd
    obtain ⟨p, hp⟩ := Scene.toRat?_of_startFrom
      (fun s hs => exists_seconds_of_mem haccepted hfinite hs) toRat?_zero hstart
    obtain ⟨q, hq⟩ := toRat?_of_add hp ht hadd
    refine ⟨start, p, q, hstart, hp, hq, fun hsum => ?_⟩
    obtain ⟨r, hr, hrnonneg⟩ := nonneg_of_add hp ht hsum hadd
    obtain rfl := Option.some.inj (hr.symm.trans hq)
    exact hrnonneg
  case succeeds =>
    obtain ⟨hrange, hvalue⟩ := inRange_timestamp haccepted hsource
    have hids : scene ∈ spec.scenes.map Scene.id := hid ▸ List.mem_map_of_mem hmem
    obtain ⟨start, hstart, hwithin⟩ :=
      Scene.startFrom_succeeds (haccepted.inBounds hordinary).scenes hids within_zero
    obtain ⟨time', htime', hwithin'⟩ := (hrange.inBounds (hordinary _ hvalue)).toDecimal
    obtain rfl := Except.ok.inj (htime.symm.trans htime')
    obtain ⟨d, hd, -⟩ := hwithin.add hwithin'
    exact ⟨d, (hknown d).2 ⟨start, hstart, hd⟩⟩
  case exact =>
    have hfits := hexact.fits haccepted.scene
    obtain ⟨start, hstart, hp⟩ := sceneStart_eq haccepted.ids hfits hk
    obtain ⟨hstartMicro, hstartSmall⟩ := hfits.startAt k
    rw [zero_add] at hstartMicro hstartSmall
    have hbound := abs_add_le (Scene.startAt spec.scenes k) timestamp.seconds
    rw [abs_of_nonneg hnonneg] at hbound
    obtain ⟨d, hd, hq⟩ := add_exact hp ht (hstartMicro.add hmicro) (by linarith)
    exact ⟨d, (hknown d).2 ⟨start, hid ▸ hstart, hd⟩, hq⟩

/-- A scene that is found under an id is at some place of the list. -/
theorem getElem_of_scene? {s : Scene} (h : spec.scene? scene = some s) :
    ∃ (k : Nat) (hk : k < spec.scenes.length), spec.scenes[k].id = scene := by
  obtain ⟨k, hk, heq⟩ := List.getElem_of_mem (List.mem_of_find?_eq_some h)
  exact ⟨k, hk, heq ▸ by simpa using List.find?_some h⟩

theorem toRat?_of_thumbnailTime (haccepted : spec.Accepted)
    (hfinite : ∀ v ∈ spec.values, v.isFinite = true)
    (hsource : spec.thumbnail.source = .frame scene timestamp) {mode : String}
    (h : spec.thumbnailTime mode = .ok d) : ∃ q, d.toRat? = some q := by
  obtain ⟨time, htime, ht, -⟩ := exists_timestamp haccepted hfinite hsource
  obtain rfl | rfl := mode_of_thumbnailTime h
  · obtain rfl := Except.ok.inj ((thumbnailTime_absolute hsource htime).symm.trans h)
    exact ⟨_, ht⟩
  · cases hscene : spec.scene? scene with
    | none =>
      obtain rfl := Except.ok.inj ((thumbnailTime_of_unknown hsource htime hscene).symm.trans h)
      exact ⟨_, ht⟩
    | some s =>
      obtain ⟨k, hk, hid⟩ := getElem_of_scene? hscene
      obtain ⟨-, -, q, -, -, hq, -⟩ := (countsFrom haccepted hfinite hsource hk hid).sign d h
      exact ⟨q, hq⟩

/-- The time of a thumbnail that is made from a frame, when it was read from finite numbers. -/
theorem thumbnail_time (hdata : data.NumbersFinite) (h : ofValue data = .ok spec)
    (hsource : spec.thumbnail.source = .frame scene timestamp) :
    0 ≤ timestamp.seconds ∧
    (∃ time, time.toRat? = some timestamp.seconds ∧ spec.thumbnailTime "absolute" = .ok time ∧
      (spec.scene? scene = none → spec.thumbnailTime "scene" = .ok time)) ∧
    (∀ k (hk : k < spec.scenes.length), spec.scenes[k].id = scene →
      spec.CountsFrom k scene timestamp.seconds ∧
        ((∀ s ∈ spec.scenes.take k, s.overlap ≤ s.length) → 0 ≤ Scene.startAt spec.scenes k)) ∧
    ∀ video outfile base mode w commands,
      (spec.planThumbnail (some video) outfile base mode).result w = .ok commands →
        ∃ d q command more, spec.thumbnailTime mode = .ok d ∧ d.toRat? = some q ∧
          commands = command :: more ∧ SeeksTo q command := by
  have haccepted := accepted_of_ofValue h
  have hfinite := finite_of_ofValue hdata h
  obtain ⟨time, htime, ht, hnonneg⟩ := exists_timestamp haccepted hfinite hsource
  refine ⟨hnonneg, ⟨time, ht, thumbnailTime_absolute hsource htime,
      thumbnailTime_of_unknown hsource htime⟩,
    fun k hk hid => ⟨countsFrom haccepted hfinite hsource hk hid, Scene.startAt_nonneg⟩,
    fun video outfile base mode w commands hcommands => ?_⟩
  obtain ⟨d, command, more, hd, rfl, hcommand⟩ := frame_of_planThumbnail hsource hcommands
  obtain ⟨q, hq⟩ := toRat?_of_thumbnailTime haccepted hfinite hsource hd
  exact ⟨d, q, command, more, hd, hq, rfl, seeksTo_of_frame hq hcommand⟩

/-- A document with two scenes, one fading into the other for some time, of which the second is
shown on the thumbnail as it starts. -/
def posterFilm (overlap : Value) : Value :=
  .map [("scenes", .list [
      .map [("id", "sky"), ("duration", 4), ("transition", .map [("type", "crossfade"),
        ("duration", overlap)])],
      .map [("id", "sea"), ("duration", 3), ("transition", .map [("duration", 1)])]]),
    ("thumbnail", .map [("source", .map [("type", "scene"), ("sceneId", "sea"),
      ("timestamp", 0)])])]

/-- What is read from it. -/
def poster (overlap : Value) : Specification where
  scenes := [
    { id := "sky", duration := 4, transition := { type := "crossfade", duration := overlap } },
    { id := "sea", duration := 3, transition := { duration := 1 } }]
  thumbnail := { source := .frame "sea" 0 }

theorem ofValue_posterFilm_one : ofValue (posterFilm 1) = .ok (poster 1) := by
  with_unfolding_all rfl

theorem thumbnail_posterFilm : (posterFilm 1).NumbersFinite ∧
    ofValue (posterFilm 1) = .ok (poster 1) ∧
    ∃ d command more, (poster 1).thumbnailTime "scene" = .ok d ∧ d.toRat? = some 3 ∧
      ((poster 1).planThumbnail (some "film.mp4") "film.png" "" "scene").result { folder := [] }
        = .ok (command :: more) ∧ SeeksTo 3 command := by
  have hdata : (posterFilm 1).NumbersFinite := by simp [posterFilm]
  have htimes : Scene.HasExactTimes (poster 1).scenes := by
    constructor <;> norm_num [poster, Scene.length, Scene.overlap]
  obtain ⟨-, -, hscenes, hcommands⟩ := thumbnail_time hdata ofValue_posterFilm_one rfl
  obtain ⟨d, hd, hq⟩ := (hscenes 1 (by decide) rfl).1.exact htimes .zero (by decide)
  have hstart : Scene.startAt (poster 1).scenes 1 + Value.seconds 0 = 3 := by
    norm_num [poster, Scene.length, Scene.overlap]
  rw [hstart] at hq
  obtain ⟨commands, hplan⟩ : ∃ commands, ((poster 1).planThumbnail (some "film.mp4") "film.png" ""
      "scene").result { folder := [] } = .ok commands := exists_of_isOk (by decide +kernel)
  obtain ⟨d', q, command, more, hd', hq', rfl, hseeks⟩ := hcommands _ _ _ _ _ _ hplan
  obtain rfl := Except.ok.inj (hd.symm.trans hd')
  obtain rfl := Option.some.inj (hq.symm.trans hq')
  exact ⟨hdata, ofValue_posterFilm_one, d, command, more, hd, hq, hplan, hseeks⟩

/-- With a transition that is longer than the scene that it ends, the frame is to be taken five
seconds before the video starts. -/
theorem thumbnail_before_video : (posterFilm 9).NumbersFinite ∧
    ofValue (posterFilm 9) = .ok (poster 9) ∧
    (∃ d, (poster 9).thumbnailTime "scene" = .ok d ∧ d.toRat? = some (-5)) ∧
    ((poster 9).planThumbnail (some "film.mp4") "film.png" "" "scene").result { folder := [] }
      = .ok [
        ["ffmpeg", "-y", "-ss", "-5", "-i", "film.mp4", "-vframes", "1", "-s", "1280x720",
          "film_frame.png"],
        ["ffmpeg", "-y", "-i", "film_frame.png", "-vf", "scale=1280:720", "-frames:v", "1",
          "film.png"]] := by
  refine ⟨by simp [posterFilm], by with_unfolding_all rfl, ?_, by decide +kernel⟩
  refine ⟨.finite true 5 0, by decide +kernel, ?_⟩
  rw [toRat?_finite]
  norm_num [withSign]

end Specification

end Storyboard
