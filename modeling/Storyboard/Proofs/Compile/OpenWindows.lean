import Storyboard.Proofs.Compile.Timeline
import Storyboard.Proofs.Compile.Windows

/-!
# Storyboard.Proofs.Compile.OpenWindows

Whether something is shown in the windows of a graph.  The end of a window may have been given, and
then nothing compares it with the start; or it is reckoned from a duration, and then it is later,
unless rounding swallows the duration.  Times of some millionths are not rounded, so with these
only an end that is given can come too early.

* `Value.Lasts.printed`, `Trim.Uses.printed_lt_iff` — the ends of a window of exact times;
* `Specification.windows_open_iff` — when all windows of a graph are open.
-/

namespace Storyboard

open Value Spec.Field

/-! ## windows of exact times -/

theorem Value.NothingOrExact.printed {v : Value} {d : Decimal} (h : v.NothingOrExact)
    (hd : v.toDecimal = .ok d) : d.printed = v.seconds :=
  Decimal.printed_of_isMicro (h.toRat? hd) (h.inMillionths hd).1

section

variable {start duration : Value} {trim : Trim} {first last : Decimal}

/-- With exact times the end of a window is as long after its start as its duration. -/
theorem Value.Lasts.printed (h : Lasts start duration first last) (hstart : start.NothingOrExact)
    (hduration : duration.NothingOrExact) :
    first.printed = start.seconds ∧ last.printed = start.seconds + duration.seconds := by
  obtain ⟨⟨_, hr⟩, _, ht⟩ := h.toRat? hstart.nothingOrSeconds hduration.nothingOrSeconds
  obtain ⟨length, hlength, -⟩ := h.stop
  obtain ⟨hp, hq⟩ := h.denotes (hstart.isMoment h.start) (hduration.isMoment hlength)
  exact ⟨(Decimal.denotes_printed hr).unique hp, (Decimal.denotes_printed ht).unique hq⟩

/-- So it is later. -/
theorem Value.Lasts.printed_lt (h : Lasts start duration first last)
    (hstart : start.NothingOrExact) (hduration : duration.NothingOrExact)
    (hrange : InRangeOrNull .aboveZero duration) : first.printed < last.printed := by
  obtain ⟨hfirst, hlast⟩ := h.printed hstart hduration
  obtain rfl | hrange := hrange
  · obtain ⟨-, length, hlength, -⟩ := h
    cases hlength
  · have hpos := hduration.nothingOrSeconds.pos hrange
    rw [hfirst, hlast]
    linarith

/-- Of a source something is used unless its end is given and does not come after its start. -/
theorem Trim.Uses.printed_lt_iff (h : trim.Uses duration first last)
    (htrim : ∀ v ∈ trim.values, v.NothingOrExact) (hduration : duration.NothingOrExact)
    (hrange : InRangeOrNull .aboveZero duration) :
    first.printed < last.printed ↔
      (trim.stop ≠ .null → trim.start.seconds < trim.stop.seconds) := by
  simp only [Trim.values, List.forall_mem_cons] at htrim
  cases h with
  | given hgiven hstart hstop =>
    rw [htrim.1.printed hstart, htrim.2.1.printed hstop]
    simp [hgiven]
  | lasting hopen h => simp [hopen, h.printed_lt htrim.1 hduration hrange]

/-- A part whose end is given has the window that is given. -/
theorem Trim.Accepted.exists_uses (h : trim.Accepted) (htrim : ∀ v ∈ trim.values, v.NothingOrExact)
    (hgiven : trim.stop ≠ .null) : ∃ first last, (∀ duration, trim.Uses duration first last) ∧
      first.printed = trim.start.seconds ∧ last.printed = trim.stop.seconds := by
  simp only [Trim.values, List.forall_mem_cons] at htrim
  obtain ⟨first, hfirst⟩ :=
    htrim.1.nothingOrSeconds.exists_toDecimal (ne_null_of_inRange h.start)
  obtain ⟨last, hlast⟩ := htrim.2.1.nothingOrSeconds.exists_toDecimal hgiven
  exact ⟨first, last, fun _ => .given hgiven hfirst hlast, htrim.1.printed hfirst,
    htrim.2.1.printed hlast⟩

end

/-! ## all windows -/

namespace Specification

/-- The parts of sources whose end is not the end of something else: those of clips that are laid
over a scene, and those of tracks. -/
inductive HasPart (spec : Specification) : Trim → Prop
  | clip {scene : Scene} {l : VideoLayer} (hscene : scene ∈ spec.scenes)
      (hl : .video l ∈ scene.layers) : HasPart spec l.trim
  | track {track : AudioTrack} (htrack : track ∈ spec.audio.tracks) : HasPart spec track.trim

variable {spec : Specification} {base anchor : String} {g : Graph} {first last : Decimal}

/-- With exact times a window is open unless it is a part whose end is given too early. -/
theorem HasWindow.printed_lt (h : spec.HasWindow first last) (haccepted : spec.Accepted)
    (hexact : spec.HasExactTimes)
    (hparts : ∀ trim, spec.HasPart trim → trim.stop ≠ .null →
      trim.start.seconds < trim.stop.seconds) : first.printed < last.printed := by
  cases h with
  | @background scene hscene h =>
    obtain ⟨hbackground, hlasts⟩ := h
    have htimes := times_of_scene hexact hscene
    have hstart := Scene.times_of_background htimes hbackground _ List.mem_cons_self
    exact hlasts.printed_lt hstart (htimes _ List.mem_cons_self)
      (.inr (haccepted.scene scene hscene).duration)
  | @layer scene l hscene hl h =>
    have htimes := times_of_scene hexact hscene
    have hlayerTimes := Scene.times_of_layer htimes hl
    have hlaccepted := (haccepted.scene scene hscene).layers l hl
    cases h with
    | on hlasts =>
      obtain ⟨hstart, hduration⟩ := Layer.times_of_timing hlayerTimes
      exact hlasts.printed_lt hstart hduration hlaccepted.timed.duration
    | @clip l _ _ huses =>
      simp only [Layer.times, List.forall_mem_cons] at hlayerTimes
      cases hlaccepted with
      | video hlaccepted =>
        refine (huses.printed_lt_iff hlayerTimes.2.2
          (Scene.of_length (htimes _ List.mem_cons_self) hlayerTimes.2.1) ?_).2
          (hparts _ (.clip hscene hl))
        exact Scene.of_length (P := InRangeOrNull .aboveZero)
          (.inr (haccepted.scene scene hscene).duration) hlaccepted.timed.duration
  | @track track htrack huses =>
    have htimes := times_of_track hexact htrack
    have htaccepted := haccepted.audio.tracks track htrack
    simp only [AudioTrack.times, List.forall_mem_append, List.forall_mem_cons] at htimes
    exact (huses.printed_lt_iff htimes.2 htimes.1.2.1 htaccepted.timed.duration).2
      (hparts _ (.track htrack))

theorem HasPart.exists_window {trim : Trim} (h : spec.HasPart trim) (haccepted : spec.Accepted)
    (hexact : spec.HasExactTimes) (hgiven : trim.stop ≠ .null) :
    ∃ first last, spec.HasWindow first last ∧ first.printed = trim.start.seconds ∧
      last.printed = trim.stop.seconds := by
  cases h with
  | @clip scene l hscene hl =>
    have htimes := Scene.times_of_layer (times_of_scene hexact hscene) hl
    simp only [Layer.times, List.forall_mem_cons] at htimes
    have hlaccepted := (haccepted.scene scene hscene).layers _ hl
    cases hlaccepted with
    | video hlaccepted =>
      obtain ⟨first, last, huses, hprinted⟩ := hlaccepted.trim.exists_uses htimes.2.2 hgiven
      exact ⟨first, last, .layer hscene hl (.clip (huses _)), hprinted⟩
  | @track track htrack =>
    have htimes := times_of_track hexact htrack
    simp only [AudioTrack.times, List.forall_mem_append] at htimes
    obtain ⟨first, last, huses, hprinted⟩ :=
      (haccepted.audio.tracks track htrack).trim.exists_uses htimes.2 hgiven
    exact ⟨first, last, .track htrack (huses _), hprinted⟩

/-- A part whose end is given is shown from its start to its end. -/
theorem HasPart.shows {trim : Trim} (h : spec.HasPart trim) (haccepted : spec.Accepted)
    (hexact : spec.HasExactTimes) (hgiven : trim.stop ≠ .null)
    (hg : spec.compile base anchor = .ok g) : g.Shows trim.start.seconds trim.stop.seconds := by
  obtain ⟨first, last, hwindow, hfirst, hlast⟩ := h.exists_window haccepted hexact hgiven
  rw [← hfirst, ← hlast]
  exact (shows_iff (fun v hv => (hexact v hv).nothingOrSeconds) hg).2 ⟨_, _, hwindow, rfl, rfl⟩

/-- All windows of a graph are open if those of its specification are once they are printed.  With
exact times they are, unless the end of a clip or of a track is given and does not come after its
start. -/
theorem windows_open_iff {data : Value} (hdata : data.NumbersFinite) (h : ofValue data = .ok spec)
    (hg : spec.compile base anchor = .ok g) :
    ((∀ p q, g.Shows p q → p < q) ↔
      ∀ first last, spec.HasWindow first last → first.printed < last.printed) ∧
    (spec.HasExactTimes → ((∀ p q, g.Shows p q → p < q) ↔
      ∀ trim, spec.HasPart trim → trim.stop ≠ .null →
        trim.start.seconds < trim.stop.seconds)) := by
  have haccepted := accepted_of_ofValue h
  have htimes := haccepted.times (finite_of_ofValue hdata h)
  have hopen : (∀ p q, g.Shows p q → p < q) ↔
      ∀ first last, spec.HasWindow first last → first.printed < last.printed := by
    simp only [shows_iff htimes hg]
    constructor
    · intro hall first last hwindow
      exact hall _ _ ⟨first, last, hwindow, rfl, rfl⟩
    · rintro hall _ _ ⟨first, last, hwindow, rfl, rfl⟩
      exact hall first last hwindow
  refine ⟨hopen, fun hexact => ⟨fun hall trim hpart hgiven => ?_, fun hparts => ?_⟩⟩
  · exact hall _ _ (hpart.shows haccepted hexact hgiven hg)
  · exact hopen.2 fun first last hwindow => hwindow.printed_lt haccepted hexact hparts

/-- A film with a part of a clip over its scene, and a track that is heard for two seconds. -/
def clipFilm (start stop : Value) : Value :=
  .map [("scenes", .list [.map [("id", "sky"), ("duration", 3),
      ("layers", .list [.map [("type", "video"), ("src", "a.mp4"),
        ("trim", .map [("from", start), ("to", stop)])]])]]),
    ("audio", .map [("tracks", .list [.map [("type", "bgm"), ("src", "b.mp3"),
      ("duration", 2)]])])]

/-- Its scene. -/
def clippedScene (start stop : Value) : Scene where
  id := "sky"
  duration := 3
  layers := [.video { src := "a.mp4", trim := { start, stop } }]

/-- What is read of it. -/
def clipped (start stop : Value) : Specification where
  scenes := [clippedScene start stop]
  audio := { tracks := [{ src := "b.mp3", duration := 2 }] }

theorem ofValue_clipFilm_two_five : ofValue (clipFilm 2 5) = .ok (clipped 2 5) := by
  with_unfolding_all rfl

theorem ofValue_clipFilm_five_two : ofValue (clipFilm 5 2) = .ok (clipped 5 2) := by
  with_unfolding_all rfl

section

variable {start stop : Value} {trim : Trim}

theorem hasPart_clipped :
    (clipped start stop).HasPart trim ↔ trim = { start, stop } ∨ trim = {} := by
  constructor
  · intro h
    cases h with
    | clip hscene hl =>
      obtain rfl := List.mem_singleton.1 hscene
      obtain rfl := Layer.video.inj (List.mem_singleton.1 hl)
      exact .inl rfl
    | track htrack =>
      obtain rfl := List.mem_singleton.1 htrack
      exact .inr rfl
  · have hscene : clippedScene start stop ∈ (clipped start stop).scenes := List.mem_singleton.2 rfl
    have hclip : .video { src := "a.mp4", trim := { start, stop } } ∈
        (clippedScene start stop).layers := List.mem_singleton.2 rfl
    have htrack : { src := "b.mp3", duration := 2 } ∈ (clipped start stop).audio.tracks :=
      List.mem_singleton.2 rfl
    rintro (rfl | rfl)
    · exact .clip hscene hclip
    · exact .track htrack

theorem hasExactTimes_clipped (hstart : start.NothingOrExact) (hstop : stop.NothingOrExact) :
    (clipped start stop).HasExactTimes := by
  have hhalf : Value.NothingOrExact 0.5 :=
    .inr ⟨⟨_, Value.seconds?_half, 500000, by norm_num⟩, by norm_num [Value.seconds_half]⟩
  simp [HasExactTimes, times, Scene.times, AudioTrack.times, Layer.times, clipped, clippedScene,
    Trim.values, Background.values, hstart, hstop, hhalf]

/-- The clip is shown from the start of its part to the end. -/
theorem exists_shows_clipped (hread : ofValue (clipFilm start stop) = .ok (clipped start stop))
    (hvalues : ∀ v ∈ (clipped start stop).values, v.IsOrdinary)
    (hexact : (clipped start stop).HasExactTimes) (hgiven : stop ≠ .null) :
    ∃ g, (clipped start stop).compile "/job" "end" = .ok g ∧
      g.Shows start.seconds stop.seconds := by
  have haccepted := accepted_of_ofValue hread
  have hrate : ({} : Output).fps.IsWritable := nofun
  obtain ⟨g, hg⟩ : ∃ g, compile (clipped start stop) "/job" "end" = .ok g :=
    exists_compile (haccepted.inBounds hvalues) hrate ⟨_, rfl⟩ haccepted.not_isFaulty
  exact ⟨g, hg, (hasPart_clipped.2 (.inl rfl)).shows haccepted hexact hgiven hg⟩

end

/-- The third to the fifth second of the clip are shown, and no window of the film is empty. -/
theorem windows_open_clipFilm : ∃ g, (clipFilm 2 5).NumbersFinite ∧
    ofValue (clipFilm 2 5) = .ok (clipped 2 5) ∧ (clipped 2 5).compile "/job" "end" = .ok g ∧
    (clipped 2 5).HasExactTimes ∧ g.Shows 2 5 ∧ ∀ p q, g.Shows p q → p < q := by
  have hfinite : (clipFilm 2 5).NumbersFinite := by simp [clipFilm]
  have hread := ofValue_clipFilm_two_five
  have hexact : (clipped 2 5).HasExactTimes := hasExactTimes_clipped (by simp) (by simp)
  obtain ⟨g, hg, hshows⟩ := exists_shows_clipped hread (by decide +kernel) hexact (by simp)
  refine ⟨g, hfinite, hread, hg, hexact, by simpa using hshows,
    ((windows_open_iff hfinite hread hg).2 hexact).2 fun trim hpart hgiven => ?_⟩
  obtain rfl | rfl := hasPart_clipped.1 hpart
  · norm_num
  · exact absurd rfl hgiven

/-- A part of a clip that ends before it starts is read all the same, and then nothing is shown. -/
theorem windows_shut_clipFilm : ∃ g, (clipFilm 5 2).NumbersFinite ∧
    ofValue (clipFilm 5 2) = .ok (clipped 5 2) ∧ (clipped 5 2).compile "/job" "end" = .ok g ∧
    g.Shows 5 2 ∧ ¬ ∀ p q, g.Shows p q → p < q := by
  have hread := ofValue_clipFilm_five_two
  have hexact : (clipped 5 2).HasExactTimes := hasExactTimes_clipped (by simp) (by simp)
  obtain ⟨g, hg, hshows⟩ := exists_shows_clipped hread (by decide +kernel) hexact (by simp)
  have hshut : g.Shows 5 2 := by simpa using hshows
  exact ⟨g, by simp [clipFilm], hread, hg, hshut,
    fun hall => absurd (hall 5 2 hshut) (by norm_num)⟩

end Specification

end Storyboard
