import Storyboard.Proofs.Compile.Failure
import Storyboard.Proofs.Value.Rate
import Storyboard.Spec.Writer

/-!
# Storyboard.Proofs.Spec.RoundTrip

A specification that is written out in full is read as itself.  Every check takes back what it
let through, and a record finds each of its fields under the name it was written with; so a
record that keeps to its limits is read back, and a specification is if its rate can be written.

* `Spec.Field.….…_eq` — what a check lets through passes it again, unchanged;
* `….ofValue_toValue` — the same for a record;
* `Specification.toValue_retraction` — reading after writing is the identity on what was read.
-/

namespace Storyboard

open Number

/-! ## entries -/

@[simp] theorem ok_bind {α β : Type} (a : α) (f : α → Except Fault β) :
    (Except.ok a : Except Fault α) >>= f = f a := rfl

@[simp] theorem pure_ok {α : Type} (a : α) : (pure a : Except Fault α) = .ok a := rfl

@[simp] theorem map_ok {α β : Type} (f : α → β) (a : α) :
    f <$> (Except.ok a : Except Fault α) = .ok (f a) := rfl

namespace Entries

@[simp] theorem get?_nil (name : String) : get? [] name = none := rfl

@[simp] theorem get?_cons (key name : String) (v : Value) (rest : Entries) :
    get? ((.text key, v) :: rest) name = if key = name then some v else get? rest name := by
  by_cases h : key = name <;> simp [get?, isName, h]

end Entries

namespace Spec.Field

variable {range : Range} {v w : Value} {s : String} {keywords : List String} (place : Place)

/-! ## fields -/

theorem InRange.number_eq (h : InRange range v) : number range place v = .ok v :=
  number_ok_iff.2 ⟨rfl, h⟩

theorem InRangeOrNull.optionalNumber_eq (h : InRangeOrNull range v) :
    optionalNumber range place v = .ok v := by
  unfold optionalNumber
  split
  · rfl
  · next hnull => exact (h.resolve_left hnull).number_eq place

theorem WholeInRange.integer_eq (h : WholeInRange range v) : integer range place v = .ok v := by
  obtain ⟨i, rfl, hi⟩ := h
  have hnumber : number range place (.int i) = .ok (.int i) := InRange.number_eq place ⟨_, rfl, hi⟩
  rw [integer, hnumber]
  rfl

/-- A rate is read back as it was written. -/
theorem IsRate.rate_eq (h : IsRate v) (hw : v.ofRate = .ok w) : rate place w = .ok v := by
  rcases h with ⟨q, rfl, hq⟩ | h
  · rw [Value.ofRate] at hw
    cases hs : ratioText q with
    | error e => rw [hs] at hw; cases hw
    | ok s =>
      rw [hs] at hw
      obtain rfl := Except.ok.inj hw
      have hread : Value.toRate (.text s) = .ok q := by
        rw [Value.toRate, readRate?_ratioText hq hs, Option.elim_some]
      simp [rate, hread, Rat.not_le.2 hq]
  · obtain ⟨x, hx, hrange⟩ := h
    cases v with
    | int i =>
      obtain rfl := Except.ok.inj hw
      exact InRange.number_eq place ⟨x, hx, hrange⟩
    | float y =>
      obtain rfl := Except.ok.inj hw
      exact InRange.number_eq place ⟨x, hx, hrange⟩
    | _ => exact absurd hx (by simp [number?])

theorem string_eq (h : s ≠ "") : string place (.text s) = .ok s := if_neg h

theorem choice_eq (h : s ∈ keywords) : choice keywords place (.text s) = .ok s :=
  choice_ok_iff.2 ⟨rfl, h⟩

theorem color_eq (h : Color.isColor s = true) : color place (.text s) = .ok s := by
  have hne : s ≠ "" := by
    rintro rfl
    exact absurd h (by decide)
  simp [color, hne, h]

theorem IsCoordinate.coordinate_eq (h : IsCoordinate keywords v) :
    coordinate keywords place v = .ok v := by
  rcases h with ⟨s, hs, rfl⟩ | h
  · rw [coordinate, choice_eq place hs]
    rfl
  · unfold coordinate
    split
    · obtain ⟨x, hx, -⟩ := h
      cases hx
    · exact h.number_eq place

theorem IsDimension.dimension_eq (h : IsDimension v) : dimension place v = .ok v := by
  unfold dimension
  split
  · rfl
  · next hauto => exact (h.resolve_left hauto).number_eq place

/-- Items that are read back one by one are read back as a list. -/
theorem items_map {α : Type} {read : Place → Value → Except Fault α} {write : α → Value}
    {as : List α} (h : ∀ a ∈ as, ∀ place, read place (write a) = .ok a) (i : Nat) :
    items read place i (as.map write) = .ok as := by
  induction as generalizing i with
  | nil => rfl
  | cons a rest ih =>
    rw [List.forall_mem_cons] at h
    rw [List.map_cons, items, h.1, ih h.2]
    rfl

theorem listOrNothing_ofList {α : Type} (write : α → Value) (as : List α) :
    listOrNothing place (.ofList write as) = .ok (as.map write) := by
  cases as <;> rfl

theorem mapping_map (entries : Entries) : mapping place (.map entries) = .ok entries := rfl

theorem mappingOrNothing_map (entries : Entries) :
    mappingOrNothing place (.map entries) = .ok entries := by
  cases entries <;> rfl

theorem optionalText_ofText? (t : Option String) : optionalText (.ofText? t) = .ok t := by
  cases t <;> rfl

end Spec.Field

open Spec.Field

/-! ## records -/

section

variable (place : Place)

theorem Trim.Accepted.ofValue_toValue {t : Trim} (h : t.Accepted) :
    ofValue place t.toValue = .ok t := by
  simp [ofValue, toValue, mapping_map, Entries.get, Entries.getD, h.start.number_eq,
    h.stop.optionalNumber_eq]

theorem Position.Accepted.ofValue_toValue {p : Position} (h : p.Accepted) :
    ofValue place p.toValue = .ok p := by
  simp [ofValue, toValue, mapping_map, Entries.getD, h.x.coordinate_eq, h.y.coordinate_eq]

theorem Size.Accepted.ofValue_toValue {s : Size} (h : s.Accepted) :
    ofValue place s.toValue = .ok s := by
  simp [ofValue, toValue, mapping_map, Entries.getD, h.width.dimension_eq, h.height.dimension_eq]

theorem Animation.Accepted.ofValue_toValue {a : Animation} (h : a.Accepted) :
    ofValue place a.toValue = .ok a := by
  simp [ofValue, toValue, mapping_map, Entries.getD, Entries.pick, choice_eq _ h.enter,
    choice_eq _ h.exit, h.enterDuration.number_eq, h.exitDuration.number_eq]

theorem Transition.Accepted.ofValue_toValue {t : Transition} (h : t.Accepted) :
    ofValue place t.toValue = .ok t := by
  simp [ofValue, toValue, mapping_map, Entries.getD, choice_eq _ h.type, h.duration.number_eq]

theorem Background.Accepted.ofValue_toValue {b : Background} (h : b.Accepted) :
    ofValue place b.toValue = .ok b := by
  cases h with
  | color h => simp [ofValue, toValue, mapping_map, Entries.get, Entries.getD, color_eq _ h]
  | image h => simp [ofValue, toValue, mapping_map, Entries.get, Entries.getD, string_eq _ h]
  | video h htrim =>
    simp [ofValue, toValue, mapping_map, Entries.get, Entries.getD, string_eq _ h,
      htrim.ofValue_toValue]
  | @gradient colors direction hlength hcolors hdirection =>
    match colors, hlength with
    | a :: b :: rest, _ =>
      have hitems := items_map (place.field "colors")
        (fun c hc place => color_eq place (hcolors c hc)) 0
      simp only [List.map_cons] at hitems
      simp [ofValue, toValue, mapping_map, Entries.get, Entries.getD, Value.ofList,
        choice_eq _ hdirection, hitems]

theorem TextStyle.Accepted.ofValue_toValue {s : TextStyle} (h : s.Accepted) :
    ofValue place s.toValue = .ok s := by
  simp [ofValue, toValue, mapping_map, Entries.getD, Entries.pick, string_eq _ h.font,
    h.size.number_eq, color_eq _ h.color, h.outline.number_eq, color_eq _ h.outlineColor,
    h.shadow.number_eq, boolean, h.lineSpacing.number_eq, choice_eq _ h.align]

theorem TextLayer.Accepted.ofValue_toValue {l : TextLayer} (h : l.Accepted) :
    Layer.ofValue place l.toValue = .ok (.text l) := by
  simp [Layer.ofValue, toValue, TextLayer.ofEntries, timing, mapping_map, Entries.get,
    Entries.getD, h.timed.start.number_eq, h.timed.duration.optionalNumber_eq,
    string_eq _ h.content, h.style.ofValue_toValue, h.position.ofValue_toValue,
    h.animation.ofValue_toValue]

theorem ImageLayer.Accepted.ofValue_toValue {l : ImageLayer} (h : l.Accepted) :
    Layer.ofValue place l.toValue = .ok (.image l) := by
  simp [Layer.ofValue, toValue, ImageLayer.ofEntries, timing, mapping_map, Entries.get,
    Entries.getD, h.timed.start.number_eq, h.timed.duration.optionalNumber_eq,
    string_eq _ h.src, h.position.ofValue_toValue, h.size.ofValue_toValue, h.opacity.number_eq,
    h.animation.ofValue_toValue]

theorem VideoLayer.Accepted.ofValue_toValue {l : VideoLayer} (h : l.Accepted) :
    Layer.ofValue place l.toValue = .ok (.video l) := by
  simp [Layer.ofValue, toValue, VideoLayer.ofEntries, timing, mapping_map, Entries.get,
    Entries.getD, h.timed.start.number_eq, h.timed.duration.optionalNumber_eq,
    string_eq _ h.src, h.trim.ofValue_toValue, h.position.ofValue_toValue,
    h.size.ofValue_toValue, h.opacity.number_eq, boolean]

theorem ShapeLayer.Accepted.ofValue_toValue {l : ShapeLayer} (h : l.Accepted) :
    Layer.ofValue place l.toValue = .ok (.shape l) := by
  have hsize : ∀ p, Size.ofValue p l.size.toValue = .ok l.size := h.size.ofValue_toValue
  rw [Size.toValue] at hsize
  simp [Layer.ofValue, toValue, ShapeLayer.ofEntries, timing, mapping_map, Entries.get,
    Entries.getD, Entries.pick, h.timed.start.number_eq, h.timed.duration.optionalNumber_eq,
    choice_eq _ h.shape, Size.toValue, hsize, h.position.ofValue_toValue, color_eq _ h.color,
    h.opacity.number_eq, h.borderRadius.number_eq]

theorem Layer.Accepted.ofValue_toValue {l : Layer} (h : l.Accepted) :
    ofValue place l.toValue = .ok l := by
  cases h with
  | text h => exact h.ofValue_toValue place
  | image h => exact h.ofValue_toValue place
  | video h => exact h.ofValue_toValue place
  | shape h => exact h.ofValue_toValue place

theorem Scene.Accepted.ofValue_toValue {s : Scene} (h : s.Accepted) :
    ofValue place s.toValue = .ok s := by
  simp [ofValue, toValue, mapping_map, Entries.get, Entries.getD, string_eq _ h.id,
    h.duration.number_eq, h.background.ofValue_toValue, listOrNothing_ofList,
    items_map _ fun l hl place => (h.layers l hl).ofValue_toValue place,
    h.transition.ofValue_toValue]

/-- Scenes with ids of their own are read back, also after scenes with other ids. -/
theorem Scene.readAll_map {scenes : List Scene} (h : ∀ s ∈ scenes, s.Accepted)
    (hids : (scenes.map Scene.id).Nodup) {before : List String}
    (hbefore : ∀ id ∈ scenes.map Scene.id, id ∉ before) (i : Nat) :
    readAll place before i (scenes.map toValue) = .ok scenes := by
  induction scenes generalizing before i with
  | nil => rfl
  | cons s rest ih =>
    rw [List.forall_mem_cons] at h
    rw [List.map_cons, List.nodup_cons] at hids
    rw [List.map_cons, List.forall_mem_cons] at hbefore
    have hrest : ∀ id ∈ rest.map Scene.id, id ∉ s.id :: before := by
      intro id hid hmem
      rcases List.mem_cons.1 hmem with rfl | hmem
      · exact hids.1 hid
      · exact hbefore.2 id hid hmem
    simp [readAll, h.1.ofValue_toValue, hbefore.1, ih h.2 hids.2 hrest]

theorem AudioTrack.Accepted.ofValue_toValue {t : AudioTrack} (h : t.Accepted) :
    ofValue place t.toValue = .ok t := by
  simp [ofValue, toValue, timing, mapping_map, Entries.get, Entries.getD, Entries.pick,
    optionalText_ofText?, string_eq _ h.src, choice_eq _ h.category, h.timed.start.number_eq,
    h.timed.duration.optionalNumber_eq, h.volume.number_eq, h.fadeIn.number_eq,
    h.fadeOut.number_eq, boolean, h.trim.ofValue_toValue]

theorem SubtitleStyle.Accepted.ofValue_toValue {s : SubtitleStyle} (h : s.Accepted) :
    ofValue place s.toValue = .ok s := by
  simp [ofValue, toValue, mapping_map, Entries.getD, Entries.pick, string_eq _ h.font,
    h.size.number_eq, color_eq _ h.color, h.outline.number_eq, color_eq _ h.outlineColor,
    h.shadow.number_eq, choice_eq _ h.position, h.marginV.number_eq]

theorem Subtitle.Accepted.ofValue_toValue {s : Subtitle} (h : s.Accepted) :
    ofValue place s.toValue = .ok s := by
  simp [ofValue, toValue, mapping_map, Entries.get, Entries.getD, h.start.number_eq,
    h.stop.number_eq, h.later, string_eq _ h.text, h.style.ofValue_toValue]

theorem ThumbnailSource.Accepted.ofValue_toValue {s : ThumbnailSource} (h : s.Accepted) :
    ofValue place s.toValue = .ok s := by
  cases h with
  | frame scene h =>
    simp [ofValue, toValue, mapping_map, Entries.get, Entries.getD, Entries.pick, h.number_eq]
  | color h =>
    simp [ofValue, toValue, mapping_map, Entries.get, Entries.getD,
      (Background.Accepted.color h).ofValue_toValue]
  | image h =>
    simp [ofValue, toValue, mapping_map, Entries.get, Entries.getD,
      (Background.Accepted.image h).ofValue_toValue]

end

theorem Audio.Accepted.ofValue_toValue {a : Audio} (h : a.Accepted) :
    ofValue a.toValue = .ok a := by
  simp [ofValue, toValue, AudioMaster.toValue, mappingOrNothing_map, Entries.get, Entries.getD,
    listOrNothing_ofList, items_map _ fun t ht place => (h.tracks t ht).ofValue_toValue place,
    h.volume.number_eq, boolean]

theorem Thumbnail.Accepted.ofValue_toValue {t : Thumbnail} (h : t.Accepted) :
    ofValue t.toValue = .ok t := by
  simp [ofValue, toValue, mappingOrNothing_map, Entries.get, Entries.getD,
    h.source.ofValue_toValue, listOrNothing_ofList,
    items_map _ fun l hl place => (h.overlays l hl).ofValue_toValue place, boolean,
    h.width.integer_eq, h.height.integer_eq]

/-! ## rates and the whole -/

namespace Value

variable {v : Value}

theorem exists_ofRate (h : v.IsWritable) : ∃ w, v.ofRate = .ok w := by
  unfold ofRate
  split
  · next q =>
    obtain ⟨s, hs⟩ := exists_ratioText (h q rfl).1 (h q rfl).2
    exact ⟨.text s, by rw [hs, map_ok]⟩
  · exact ⟨v, rfl⟩

theorem ofRate_of_not_isWritable (h : ¬ v.IsWritable) : v.ofRate = .error .valueUnsuited := by
  simp only [IsWritable, not_forall] at h
  obtain ⟨q, rfl, hlong⟩ := h
  rw [ofRate, ratioText_of_long hlong]
  rfl

end Value

theorem Output.Accepted.ofValue_toValue {o : Output} {v : Value} (h : o.Accepted)
    (hv : o.toValue = .ok v) : ofValue v = .ok o := by
  obtain ⟨fps, hfps, hv⟩ := bind_eq_ok.1 hv
  obtain rfl := pure_eq_ok.1 hv
  simp [ofValue, mappingOrNothing_map, Entries.getD, Entries.pick, h.width.integer_eq,
    h.height.integer_eq, h.fps.rate_eq _ hfps, choice_eq _ h.format, choice_eq _ h.codec,
    h.crf.integer_eq, choice_eq _ h.preset, h.sampleRate.integer_eq]

namespace Specification

variable {spec : Specification} {v : Value}

theorem scenesOf_of_get {entries : Entries} {scenes : List Scene}
    (hget : entries.get "scenes" = .ofList Scene.toValue scenes) (hne : scenes ≠ [])
    (h : ∀ s ∈ scenes, s.Accepted) (hids : (scenes.map Scene.id).Nodup) :
    scenesOf entries = .ok scenes := by
  have hread := Scene.readAll_map (.root "scenes") h hids (fun _ _ => List.not_mem_nil) 0
  cases scenes with
  | nil => exact absurd rfl hne
  | cons s rest =>
    rw [scenesOf, hget]
    exact hread

/-- A specification that keeps to its limits is read back from what is written. -/
theorem Accepted.ofValue_toValue (h : spec.Accepted) (hv : spec.toValue = .ok v) :
    ofValue v = .ok spec := by
  obtain ⟨output, houtput, hv⟩ := bind_eq_ok.1 hv
  obtain rfl := pure_eq_ok.1 hv
  have hsubtitles := items_map (.root "subtitles")
    (fun t ht place => (h.subtitles t ht).ofValue_toValue place) 0
  show ofEntries _ = _
  rw [ofEntries, scenesOf_of_get rfl h.scenes h.scene h.ids]
  simp [Entries.get, Entries.getD, optionalText_ofText?, h.output.ofValue_toValue houtput,
    h.audio.ofValue_toValue, listOrNothing_ofList, hsubtitles, h.thumbnail.ofValue_toValue]

/-- It is written if its rate can be. -/
theorem exists_toValue (h : spec.output.fps.IsWritable) : ∃ v, spec.toValue = .ok v := by
  obtain ⟨fps, hfps⟩ := Value.exists_ofRate h
  exact ⟨_, by rw [toValue, Output.toValue, hfps]; rfl⟩

theorem toValue_of_not_isWritable (h : ¬ spec.output.fps.IsWritable) :
    spec.toValue = .error .valueUnsuited := by
  rw [toValue, Output.toValue, Value.ofRate_of_not_isWritable h]
  rfl

/-- What was read is written and read back as itself if its rate can be written; else it cannot be
written. -/
theorem toValue_retraction {data : Value} (h : ofValue data = .ok spec) :
    ((∃ v, spec.toValue = .ok v ∧ ofValue v = .ok spec) ↔ spec.output.fps.IsWritable) ∧
    (spec.toValue = .error .valueUnsuited ↔ ¬ spec.output.fps.IsWritable) := by
  by_cases hrate : spec.output.fps.IsWritable
  · obtain ⟨v, hv⟩ := exists_toValue hrate
    have hback := (accepted_of_ofValue h).ofValue_toValue hv
    simp [hv, hback, hrate]
  · simp [toValue_of_not_isWritable hrate, hrate]

/-- A document with something of every kind, at a rate that is an exact quotient. -/
def coastFilm : Value :=
  .map [("version", 2), ("title", "Coast"),
    ("output", .map [("width", 1280.0), ("fps", "30000/1001"), ("sampleRate", 48000)]),
    ("scenes", .list [
      .map [("id", "sky"), ("duration", 2.5),
        ("background", .map [("type", "gradient"), ("colors", .list ["#0000FF", "white"])]),
        ("layers", .list [
          .map [("type", "text"), ("content", "Coast"), ("style", .map [("lineSpacing", 2)]),
            ("animation", .map [("enterDuration", 1)])],
          .map [("type", "shape"), ("shape", "circle"), ("size", .map [("width", 20)])]]),
        ("transition", .map [("type", "crossfade")])],
      .map [("id", "sea"), ("duration", 3),
        ("background", .map [("type", "video"), ("src", "sea.mp4"), ("trim", .map [("from", 1)])]),
        ("layers", .list [
          .map [("type", "image"), ("src", "logo.png"), ("position", .map [("x", 10)])],
          .map [("type", "video"), ("src", "gull.mp4"), ("start", 1), ("duration", 2)]])]]),
    ("audio", .map [("tracks", .list [
      .map [("type", "bgm"), ("src", "song.mp3"), ("fadeIn", 0.5), ("id", 7)]])]),
    ("subtitles", .list [.map [("start", 0), ("end", 1), ("text", "Hello")]]),
    ("thumbnail", .map [("source", .map [("type", "custom"),
      ("background", .map [("type", "color"), ("value", "navy")])])])]

/-- It is read, and its rate can be written. -/
theorem exists_coastFilm : ∃ spec, ofValue coastFilm = .ok spec ∧ spec.output.fps.IsWritable := by
  have htest :
      (ofValue coastFilm).toOption.any (fun spec => spec.output.fps.IsWritable) = true := by
    decide +kernel
  obtain ⟨spec, hspec, hrate⟩ := exists_of_any htest
  exact ⟨spec, hspec, of_decide_eq_true hrate⟩

theorem toValue_retraction_coastFilm : ∃ spec v, ofValue coastFilm = .ok spec ∧
    spec.toValue = .ok v ∧ ofValue v = .ok spec := by
  obtain ⟨spec, hspec, hrate⟩ := exists_coastFilm
  obtain ⟨v, hv, hback⟩ := (toValue_retraction hspec).1.2 hrate
  exact ⟨spec, v, hspec, hv, hback⟩

/-- A rate of one frame in `10 ^ 5000` seconds is read, but it cannot be written. -/
theorem toValue_plainFilm_tooSlow : ∃ spec, ofValue (plainFilm "1e-5000") = .ok spec ∧
    spec.toValue = .error .valueUnsuited := by
  have htest : (ofValue (plainFilm "1e-5000")).toOption.any (fun spec =>
      ¬ spec.output.fps.IsWritable) = true := by
    decide +kernel
  obtain ⟨spec, hspec, hrate⟩ := exists_of_any htest
  exact ⟨spec, hspec, toValue_of_not_isWritable (of_decide_eq_true hrate)⟩

end Specification

end Storyboard
