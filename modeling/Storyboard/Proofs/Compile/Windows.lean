import Storyboard.Proofs.Compile.Filters
import Storyboard.Proofs.Compile.Origin
import Storyboard.Proofs.Number.Printed
import Storyboard.Proofs.Spec.Times

/-!
# Storyboard.Proofs.Compile.Windows

The times between which something is shown or heard.  A graph says so in three ways: it cuts a
stream of pictures or of sound, or it keeps a filter to a condition on the time.  These windows
are those of the elements of the specification, with both ends rounded to what filter text can
hold, and nothing else.

* `Scene.BackgroundStep.shows_iff`, `Scene.LayerStep.shows_iff`, `AudioTrack.TrackStep.shows_iff` —
  the windows of one element;
* `Specification.shows_iff` — the windows of a graph are those of its specification.
-/

namespace Storyboard

open Build Value

/-! ## windows in a graph -/

namespace Filter

/-- The condition that keeps a filter to the times from `first` on and before `last`. -/
def whileText (first last : String) : String := "'gte(t," ++ first ++ ")*lt(t," ++ last ++ ")'"

/-- A filter shows a window whose ends are written so. -/
inductive Writes : Filter → String → String → Prop
  | cut (first last : String) :
      Writes (.call "trim" [.named "start" first, .named "end" last]) first last
  | keep (first last : String) :
      Writes (.call "atrim" [.named "start" first, .named "end" last]) first last
  | enable {options : List FilterOption} {first last : String} (name : String)
      (h : .named "enable" (whileText first last) ∈ options) :
      Writes (.call name options) first last

/-- A filter shows something from one time to another; the times are those that are written. -/
def Shows (f : Filter) (p q : ℚ) : Prop :=
  ∃ first last, f.Writes first last ∧ Numeral.Denotes first p ∧ Numeral.Denotes last q

end Filter

/-- A statement shows something from one time to another. -/
def Node.Shows (n : Node) (p q : ℚ) : Prop := ∃ f ∈ n.filters, f.Shows p q

/-- A graph shows something from one time to another. -/
def Graph.Shows (g : Graph) (p q : ℚ) : Prop := ∃ n ∈ g.nodes, n.Shows p q

/-! ## windows in a specification -/

/-- What starts at a time and lasts for another is on from `first` to `last`. -/
structure Value.Lasts (start duration : Value) (first last : Decimal) : Prop where
  start : start.toDecimal = .ok first
  stop : ∃ length, duration.toDecimal = .ok length ∧ first.add length = .ok last

/-- The part of a source that is used ends where it is said to, else after a duration. -/
inductive Trim.Uses (trim : Trim) (duration : Value) (first last : Decimal) : Prop
  | given (hgiven : trim.stop ≠ .null) (hstart : trim.start.toDecimal = .ok first)
      (hstop : trim.stop.toDecimal = .ok last) : Uses trim duration first last
  | lasting (hopen : trim.stop = .null) (h : Lasts trim.start duration first last) :
      Uses trim duration first last

/-- For how long a clip is shown if it is not said where it ends. -/
def VideoLayer.length (scene : Scene) (l : VideoLayer) : Value :=
  match l.duration with
  | .null => scene.duration
  | duration => duration

/-- A video that is the background of a scene is on for as long as the scene. -/
inductive Scene.BackgroundWindow (scene : Scene) (first last : Decimal) : Prop
  | video {src : String} {trim : Trim} (hbackground : scene.background = .video src trim)
      (h : Lasts trim.start scene.duration first last) : BackgroundWindow scene first last

/-- A layer is on for its duration; of a clip, moreover, a part is used. -/
inductive Scene.LayerWindow (scene : Scene) : Layer → Decimal → Decimal → Prop
  | on {l : Layer} {first last : Decimal} (h : Lasts l.timing.1 l.timing.2 first last) :
      LayerWindow scene l first last
  | clip {l : VideoLayer} {first last : Decimal} (h : l.trim.Uses (l.length scene) first last) :
      LayerWindow scene (.video l) first last

/-- Of a track a part is heard. -/
def AudioTrack.TrackWindow (track : AudioTrack) : Decimal → Decimal → Prop :=
  track.trim.Uses track.duration

/-- The windows of a specification that have an end. -/
inductive Specification.HasWindow (spec : Specification) (first last : Decimal) : Prop
  | background {scene : Scene} (hscene : scene ∈ spec.scenes)
      (h : scene.BackgroundWindow first last) : HasWindow spec first last
  | layer {scene : Scene} {l : Layer} (hscene : scene ∈ spec.scenes) (hl : l ∈ scene.layers)
      (h : scene.LayerWindow l first last) : HasWindow spec first last
  | track {track : AudioTrack} (htrack : track ∈ spec.audio.tracks)
      (h : track.TrackWindow first last) : HasWindow spec first last

/-- One of the windows, with its ends as filter text holds them. -/
def Prints (window : Decimal → Decimal → Prop) (p q : ℚ) : Prop :=
  ∃ first last, window first last ∧ p = first.printed ∧ q = last.printed

section

variable {start duration : Value} {trim : Trim} {first last first' last' : Decimal} {p q : ℚ}

theorem Value.Lasts.unique (h : Lasts start duration first last)
    (h' : Lasts start duration first' last') : first' = first ∧ last' = last := by
  obtain ⟨hfirst, length, hlength, hlast⟩ := h
  obtain ⟨hfirst', length', hlength', hlast'⟩ := h'
  obtain rfl := Except.ok.inj (hfirst.symm.trans hfirst')
  obtain rfl := Except.ok.inj (hlength.symm.trans hlength')
  obtain rfl := Except.ok.inj (hlast.symm.trans hlast')
  exact ⟨rfl, rfl⟩

theorem Trim.Uses.unique (h : trim.Uses duration first last)
    (h' : trim.Uses duration first' last') : first' = first ∧ last' = last := by
  cases h with
  | given hgiven hstart hstop =>
    cases h' with
    | given _ hstart' hstop' =>
      exact ⟨Except.ok.inj (hstart'.symm.trans hstart), Except.ok.inj (hstop'.symm.trans hstop)⟩
    | lasting hopen _ => exact absurd hopen hgiven
  | lasting hopen h =>
    cases h' with
    | given hgiven _ _ => exact absurd hopen hgiven
    | lasting _ h' => exact h.unique h'

/-- A window is written exactly. -/
theorem Value.Lasts.denotes (h : Lasts start duration first last) (hstart : start.IsMoment p)
    (hduration : duration.IsMoment q) :
    Numeral.Denotes first.shortText p ∧ Numeral.Denotes last.shortText (p + q) := by
  obtain ⟨hfirst, length, hlength, hlast⟩ := h
  have hsum : |p + q| < 10 ^ 22 := by
    refine (abs_add_le _ _).trans_lt ((add_lt_add hstart.small hduration.small).trans ?_)
    norm_num
  have hmicro : Decimal.IsMicro (p + q) := hstart.micro.add hduration.micro
  obtain ⟨z, hz, hvalue⟩ :=
    Decimal.add_exact (hstart.toRat? hfirst) (hduration.toRat? hlength) hmicro hsum
  obtain rfl := Except.ok.inj (hlast.symm.trans hz)
  exact ⟨hstart.denotes hfirst, Numeral.denotes_shortText hvalue hmicro⟩

/-- The ends of a window between times are finite. -/
theorem Value.Lasts.toRat? (h : Lasts start duration first last) (hstart : start.NothingOrSeconds)
    (hduration : duration.NothingOrSeconds) :
    (∃ r, first.toRat? = some r) ∧ ∃ t, last.toRat? = some t := by
  obtain ⟨hfirst, length, hlength, hlast⟩ := h
  exact ⟨⟨_, hstart.toRat? hfirst⟩,
    Decimal.toRat?_of_add (hstart.toRat? hfirst) (hduration.toRat? hlength) hlast⟩

theorem Trim.Uses.toRat? (h : trim.Uses duration first last)
    (htrim : ∀ v ∈ trim.values, v.NothingOrSeconds) (hduration : duration.NothingOrSeconds) :
    (∃ r, first.toRat? = some r) ∧ ∃ t, last.toRat? = some t := by
  simp only [Trim.values, List.forall_mem_cons] at htrim
  cases h with
  | given _ hstart hstop => exact ⟨⟨_, htrim.1.toRat? hstart⟩, ⟨_, htrim.2.1.toRat? hstop⟩⟩
  | lasting _ h => exact h.toRat? htrim.1 hduration

/-- If there is one window, it is the one that is printed. -/
theorem prints_iff {window : Decimal → Decimal → Prop} (h : window first last)
    (hunique : ∀ first' last', window first' last' → first' = first ∧ last' = last) :
    Prints window p q ↔ p = first.printed ∧ q = last.printed := by
  constructor
  · rintro ⟨first', last', h', hprints⟩
    obtain ⟨rfl, rfl⟩ := hunique _ _ h'
    exact hprints
  · intro hprints
    exact ⟨first, last, h, hprints⟩

end

/-! ## filters with a window -/

namespace Filter

variable {f : Filter} {name first last first' last' : String} {options others : List FilterOption}
  {p q : ℚ}

theorem bracket_notMem {s : String} {r : ℚ} (hs : Numeral.Denotes s r) : ')' ∉ s.toList :=
  Numeral.notMem_of_denotes hs (by decide)

/-- A condition goes on after the first end with a bracket, and with more. -/
theorem toList_whileText (first last : String) : (whileText first last).toList
    = "'gte(t,".toList ++ (first.toList ++ ')' :: ("*lt(t,".toList ++
        (last.toList ++ ')' :: ['\'']))) := by
  have hmiddle : ")*lt(t,".toList = ')' :: "*lt(t,".toList := rfl
  have hend : ")'".toList = ')' :: ['\''] := rfl
  simp only [whileText, String.toList_append, List.append_assoc, hmiddle, hend, List.cons_append]

/-- The two ends can be told from a condition, since no numeral has a bracket. -/
theorem whileText_inj {p' q' : ℚ} (hfirst : Numeral.Denotes first p)
    (hlast : Numeral.Denotes last q) (hfirst' : Numeral.Denotes first' p')
    (hlast' : Numeral.Denotes last' q') (h : whileText first last = whileText first' last') :
    first = first' ∧ last = last' := by
  have hlists := congrArg String.toList h
  rw [toList_whileText, toList_whileText] at hlists
  obtain ⟨hstart, hrest⟩ := Number.append_inj_of_notMem (bracket_notMem hfirst)
    (bracket_notMem hfirst') (List.append_cancel_left hlists)
  obtain ⟨hstop, -⟩ := Number.append_inj_of_notMem (bracket_notMem hlast)
    (bracket_notMem hlast') (List.append_cancel_left hrest)
  exact ⟨String.toList_inj.1 hstart, String.toList_inj.1 hstop⟩

/-- A condition without an end is none with one. -/
theorem whileText_ne {p' : ℚ} (hfirst : Numeral.Denotes first p)
    (hfirst' : Numeral.Denotes first' p') :
    "'gte(t," ++ first' ++ ")" ++ "'" ≠ whileText first last := by
  intro h
  have hlists := congrArg String.toList h
  have hend : ")".toList = [')'] := rfl
  rw [toList_whileText] at hlists
  simp only [String.toList_append, List.append_assoc, hend, List.cons_append,
    List.nil_append] at hlists
  obtain ⟨-, hrest⟩ := Number.append_inj_of_notMem (bracket_notMem hfirst') (bracket_notMem hfirst)
    (List.append_cancel_left hlists)
  exact absurd (congrArg List.head? hrest) (by simp)

theorem writes_call_iff : (call name options).Writes first last ↔
    (name = "trim" ∨ name = "atrim") ∧ options = [.named "start" first, .named "end" last] ∨
      .named "enable" (whileText first last) ∈ options := by
  constructor
  · intro h
    cases h with
    | cut => exact .inl ⟨.inl rfl, rfl⟩
    | keep => exact .inl ⟨.inr rfl, rfl⟩
    | enable name h => exact .inr h
  · rintro (⟨rfl | rfl, rfl⟩ | h)
    · exact .cut first last
    · exact .keep first last
    · exact .enable name h

/-- What cuts a stream at two times shows what is between them. -/
theorem shows_between {start stop : Decimal} (hname : name = "trim" ∨ name = "atrim") {r t : ℚ}
    (hstart : start.toRat? = some r) (hstop : stop.toRat? = some t) :
    (call name [.time "start" start, .time "end" stop]).Shows p q ↔
      p = start.printed ∧ q = stop.printed := by
  rw [← Decimal.denotes_iff hstart, ← Decimal.denotes_iff hstop]
  constructor
  · rintro ⟨first, last, hwrites, hfirst, hlast⟩
    rcases writes_call_iff.1 hwrites with ⟨-, hoptions⟩ | hmem
    · obtain ⟨rfl, rfl⟩ : start.shortText = first ∧ stop.shortText = last := by
        simpa [FilterOption.time, FilterOption.named] using hoptions
      exact ⟨hfirst, hlast⟩
    · simp [FilterOption.time, FilterOption.named] at hmem
  · rintro ⟨hfirst, hlast⟩
    exact ⟨_, _, writes_call_iff.2 (.inl ⟨hname, rfl⟩), hfirst, hlast⟩

/-- A filter without a window. -/
def Windowless (f : Filter) : Prop := ∀ p q, ¬ f.Shows p q

/-- An option by which no filter is kept to a window. -/
def Unconditional (o : FilterOption) : Prop := o.name? ≠ some "enable"

@[simp] theorem unconditional_plain (value : String) : Unconditional (.plain value) := by
  simp [Unconditional, FilterOption.plain]

@[simp] theorem unconditional_named (value : String) :
    Unconditional (.named name value) ↔ name ≠ "enable" := by
  simp [Unconditional, FilterOption.named]

@[simp] theorem unconditional_time (d : Decimal) :
    Unconditional (.time name d) ↔ name ≠ "enable" := unconditional_named _

theorem windowless_call (hname : name ≠ "trim" ∧ name ≠ "atrim")
    (h : ∀ o ∈ options, Unconditional o) : (call name options).Windowless := by
  rintro p q ⟨first, last, hwrites, -⟩
  rcases writes_call_iff.1 hwrites with ⟨hcut, -⟩ | hmem
  · exact hcut.elim hname.1 hname.2
  · exact h _ hmem rfl

/-- So is what cuts a stream at one time. -/
theorem windowless_cut {o : FilterOption} (h : Unconditional o) : (call name [o]).Windowless := by
  rintro p q ⟨first, last, hwrites, -⟩
  rcases writes_call_iff.1 hwrites with ⟨-, hoptions⟩ | hmem
  · simp at hoptions
  · exact h (List.mem_singleton.1 hmem ▸ rfl)

/-- A filter has the condition of its window and no other. -/
theorem enable_mem_iff (hothers : ∀ o ∈ others, Unconditional o) {window : Window}
    {value : String} :
    .named "enable" value ∈ others ++ Window.options (some window) ↔ value = window.text := by
  rw [List.mem_append]
  constructor
  · rintro (h | h)
    · exact absurd rfl (hothers _ h)
    · simpa [Window.options, FilterOption.named] using h
  · rintro rfl
    exact .inr (List.mem_singleton.2 rfl)

/-- What is kept to a window shows what is between its ends. -/
theorem shows_options {start stop : Decimal} {r t : ℚ} (hname : name ≠ "trim" ∧ name ≠ "atrim")
    (hothers : ∀ o ∈ others, Unconditional o) (hstart : start.toRat? = some r)
    (hstop : stop.toRat? = some t) :
    (call name (others ++ Window.options (some ⟨start, some stop⟩))).Shows p q ↔
      p = start.printed ∧ q = stop.printed := by
  have htext : (Window.mk start (some stop)).text = whileText start.shortText stop.shortText := by
    rw [← String.toList_inj, toList_whileText]
    simp [Window.text]
  rw [← Decimal.denotes_iff hstart, ← Decimal.denotes_iff hstop]
  constructor
  · rintro ⟨first, last, hwrites, hfirst, hlast⟩
    rcases writes_call_iff.1 hwrites with ⟨hcut, -⟩ | h
    · exact (hcut.elim hname.1 hname.2).elim
    · obtain ⟨rfl, rfl⟩ := whileText_inj hfirst hlast (Decimal.denotes_printed hstart)
        (Decimal.denotes_printed hstop) (((enable_mem_iff hothers).1 h).trans htext)
      exact ⟨hfirst, hlast⟩
  · rintro ⟨hfirst, hlast⟩
    exact ⟨_, _, writes_call_iff.2 (.inr ((enable_mem_iff hothers).2 htext.symm)), hfirst, hlast⟩

/-- What is kept to a start alone has no window. -/
theorem windowless_options {start : Decimal} {r : ℚ} (hname : name ≠ "trim" ∧ name ≠ "atrim")
    (hothers : ∀ o ∈ others, Unconditional o) (hstart : start.toRat? = some r) :
    (call name (others ++ Window.options (some ⟨start, none⟩))).Windowless := by
  rintro p q ⟨first, last, hwrites, hfirst, -⟩
  rcases writes_call_iff.1 hwrites with ⟨hcut, -⟩ | h
  · exact hcut.elim hname.1 hname.2
  · have htext : whileText first last = "'gte(t," ++ start.shortText ++ ")" ++ "'" := by
      simpa [Window.text] using (enable_mem_iff hothers).1 h
    exact whileText_ne hfirst (Decimal.denotes_printed hstart) htext.symm

end Filter

/-- A window starts at a time that is given; it has an end if a duration is given. -/
theorem Window.of_forms {start duration : Value} {window : Option Window}
    (h : Window.of start duration = .ok window) : ∃ first, start.toDecimal = .ok first ∧
      (duration = .null ∧ (window = none ∨ window = some ⟨first, none⟩) ∨
        ∃ length last, duration.toDecimal = .ok length ∧ first.add length = .ok last ∧
          window = some ⟨first, some last⟩) := by
  obtain ⟨first, hfirst, h⟩ := bind_eq_ok.1 h
  refine ⟨first, hfirst, ?_⟩
  split at h
  · obtain ⟨later, -, h⟩ := bind_eq_ok.1 h
    split at h
    · obtain ⟨-, h⟩ := Decimal.written_bind_eq_ok.1 h
      exact .inl ⟨rfl, .inr (pure_eq_ok.1 h)⟩
    · exact .inl ⟨rfl, .inl (pure_eq_ok.1 h)⟩
  · obtain ⟨length, hlength, h⟩ := bind_eq_ok.1 h
    obtain ⟨last, hlast, h⟩ := bind_eq_ok.1 h
    obtain ⟨-, h⟩ := Decimal.written_bind_eq_ok.1 h
    obtain ⟨-, h⟩ := Decimal.written_bind_eq_ok.1 h
    exact .inr ⟨length, last, hlength, hlast, pure_eq_ok.1 h⟩

namespace Filter

variable {name : String} {others : List FilterOption} {start duration : Value} {p q : ℚ}

/-- A filter is kept to the time for which its element is on. -/
theorem shows_window_iff {window : Option Window} (hname : name ≠ "trim" ∧ name ≠ "atrim")
    (hothers : ∀ o ∈ others, Unconditional o) (hwindow : Window.of start duration = .ok window)
    (hstart : start.NothingOrSeconds) (hduration : duration.NothingOrSeconds) :
    (call name (others ++ Window.options window)).Shows p q ↔
      Prints (Lasts start duration) p q := by
  obtain ⟨first, hfirst, ⟨rfl, hopen⟩ | ⟨length, last, hlength, hlast, rfl⟩⟩ :=
    Window.of_forms hwindow
  · have hnone : ¬ Prints (Lasts start .null) p q := by
      rintro ⟨_, _, ⟨-, length, hlength, -⟩, -⟩
      cases hlength
    refine iff_of_false ?_ hnone
    obtain rfl | rfl := hopen
    · exact windowless_call hname (by simpa [Window.options] using hothers) p q
    · exact windowless_options hname hothers (hstart.toRat? hfirst) p q
  · have hlasts : Lasts start duration first last := ⟨hfirst, length, hlength, hlast⟩
    obtain ⟨⟨r, hr⟩, t, ht⟩ := hlasts.toRat? hstart hduration
    rw [shows_options hname hothers hr ht, prints_iff hlasts fun _ _ => hlasts.unique]

/-- A stream is cut to the part of its source that is used. -/
theorem shows_uses_iff {trim : Trim} {first last : Decimal} (hname : name = "trim" ∨ name = "atrim")
    (huses : trim.Uses duration first last) (htrim : ∀ v ∈ trim.values, v.NothingOrSeconds)
    (hduration : duration.NothingOrSeconds) :
    (call name [.time "start" first, .time "end" last]).Shows p q ↔
      Prints (trim.Uses duration) p q := by
  obtain ⟨⟨r, hr⟩, t, ht⟩ := huses.toRat? htrim hduration
  rw [shows_between hname hr ht, prints_iff huses fun _ _ => huses.unique]

theorem exists_shows_append {fs rest : List Filter} (hrest : ∀ f ∈ rest, f.Windowless) :
    (∃ f ∈ fs ++ rest, f.Shows p q) ↔ ∃ f ∈ fs, f.Shows p q := by
  simp only [List.mem_append, or_and_right, exists_or]
  exact or_iff_left fun ⟨f, hf, hshows⟩ => hrest f hf p q hshows

theorem exists_shows_cons {f : Filter} {rest : List Filter} (hrest : ∀ f ∈ rest, f.Windowless) :
    (∃ f' ∈ f :: rest, f'.Shows p q) ↔ f.Shows p q := by
  rw [← List.singleton_append, exists_shows_append hrest]
  simp

end Filter

/-! ## filters without a window -/

section

open Storyboard.Filter

variable {output : Output} {f : Filter} {fs : List Filter}

theorem Scene.windowless_toPixelFormat : toPixelFormat.Windowless :=
  windowless_call (by decide) (by simp)

theorem Scene.windowless_fromZero : fromZero.Windowless := windowless_call (by decide) (by simp)

theorem Scene.windowless_fromStart {start : Value} (h : fromStart start = .ok f) :
    f.Windowless := by
  obtain rfl | ⟨d, rfl⟩ := fromStart_forms h
  · exact windowless_fromZero
  · exact windowless_call (by decide) (by simp)

theorem Output.windowless_toRate (h : output.toRate = .ok f) : f.Windowless := by
  obtain ⟨t, -, rfl⟩ := toRate_eq_ok.1 h
  exact windowless_call (by decide) (by simp)

theorem Output.windowless_letterbox (h : output.letterbox = .ok fs) : ∀ f ∈ fs, f.Windowless := by
  obtain ⟨w, h, -, -, rfl⟩ := letterbox_eq_ok.1 h
  simp only [List.forall_mem_cons]
  exact ⟨windowless_call (by decide) (by simp), windowless_call (by decide) (by simp),
    List.forall_mem_nil _⟩

theorem Output.windowless_plainColor {color : String} {duration : Value}
    (h : output.plainColor color duration = .ok f) : f.Windowless := by
  obtain ⟨s, d, r, -, -, -, rfl⟩ := plainColor_eq_ok.1 h
  exact windowless_call (by decide) (by simp)

theorem Size.windowless_scale {size : Size} (h : size.scale = .ok f) : f.Windowless := by
  obtain ⟨w, h, -, -, rfl⟩ := scale_eq_ok.1 h
  exact windowless_call (by decide) (by simp)

theorem windowless_opacityFilters {opacity : Value} (h : opacityFilters opacity = .ok fs) :
    ∀ f ∈ fs, f.Windowless := by
  obtain rfl | ⟨a, -, rfl⟩ := opacityFilters_forms h
  · simpa using Scene.windowless_toPixelFormat
  · simp only [List.forall_mem_cons]
    exact ⟨windowless_call (by decide) (by simp), windowless_call (by decide) (by simp),
      Scene.windowless_toPixelFormat, List.forall_mem_nil _⟩

theorem Scene.windowless_imageFilters {layer : ImageLayer} (h : imageFilters layer = .ok fs) :
    ∀ f ∈ fs, f.Windowless := by
  obtain ⟨scaled, shown, hscaled, hshown, rfl⟩ := imageFilters_eq_ok.1 h
  exact List.forall_mem_cons.2 ⟨Size.windowless_scale hscaled, windowless_opacityFilters hshown⟩

theorem Transition.windowless_filter (type : String) (duration offset : Decimal) :
    (filter type duration offset).Windowless :=
  windowless_call (by decide) (by simp)

namespace AudioTrack

theorem windowless_volumeFilters {volume : Decimal} (h : volumeFilters volume = .ok fs) :
    ∀ f ∈ fs, f.Windowless := by
  obtain ⟨same, -, h⟩ := volumeFilters_eq_ok.1 h
  split at h
  · simp [h]
  · obtain ⟨-, rfl⟩ := h
    simpa using windowless_call (by decide) (by simp)

theorem windowless_fadeInFilters {fade : Decimal} (h : fadeInFilters fade = .ok fs) :
    ∀ f ∈ fs, f.Windowless := by
  obtain ⟨fades, -, h⟩ := fadeInFilters_eq_ok.1 h
  split at h
  · obtain ⟨-, rfl⟩ := h
    simpa using windowless_call (by decide) (by simp)
  · simp [h]

theorem windowless_fadeOutFilters {anchor : Anchor} {fade start : Decimal}
    {stop? : Option Decimal} (h : fadeOutFilters anchor fade start stop? = .ok fs) :
    ∀ f ∈ fs, f.Windowless := by
  obtain ⟨fades, -, h⟩ := fadeOutFilters_eq_ok.1 h
  split at h
  · obtain ⟨first, -, -, rfl⟩ := h
    simpa using windowless_call (by decide) (by simp)
  · simp [h]

theorem windowless_delayFilters {start : Decimal} (h : delayFilters start = .ok fs) :
    ∀ f ∈ fs, f.Windowless := by
  obtain ⟨later, -, h⟩ := delayFilters_eq_ok.1 h
  split at h
  · obtain ⟨ms, -, rfl⟩ := h
    simpa using windowless_call (by decide) (by simp)
  · simp [h]

end AudioTrack

end

/-! ## the windows of one element -/

theorem unconditional_fontOption (font base : String) :
    Filter.Unconditional (fontOption font base) := by
  unfold fontOption
  split <;> simp

/-- A filter by name that is kept to the window of an element, and to no other. -/
inductive Filter.IsOnFor (name : String) (start duration : Value) : Filter → Prop
  | intro {others : List FilterOption} {window : Option Window}
      (hothers : ∀ o ∈ others, Unconditional o) (hwindow : Window.of start duration = .ok window) :
      IsOnFor name start duration (.call name (others ++ Window.options window))

/-- It shows what is in that window. -/
theorem Filter.IsOnFor.shows_iff {name : String} {start duration : Value} {f : Filter} {p q : ℚ}
    (h : f.IsOnFor name start duration) (hname : name ≠ "trim" ∧ name ≠ "atrim")
    (hstart : start.NothingOrSeconds) (hduration : duration.NothingOrSeconds) :
    f.Shows p q ↔ Prints (Lasts start duration) p q := by
  obtain ⟨hothers, hwindow⟩ := h
  exact shows_window_iff hname hothers hwindow hstart hduration

theorem TextLayer.isOnFor {layer : TextLayer} {base : String} {f : Filter}
    (h : layer.filter base = .ok f) : f.IsOnFor "drawtext" layer.start layer.duration := by
  obtain ⟨size, outline, shadow, x, y, shadowed, window, hwindow, -, -, -, -, rfl⟩ :=
    filter_forms h
  obtain ⟨others, hothers⟩ : ∃ others, others = [.named "text" ("'" ++
      Graph.Escape.contentText layer.content ++ "'"), fontOption layer.style.font base,
      .named "fontsize" size, .named "fontcolor" layer.style.color, .named "borderw" outline,
      .named "bordercolor" layer.style.outlineColor] ++ shadowOptions shadowed shadow ++
      [.named "x" x, .named "y" y] := ⟨_, rfl⟩
  have hunconditional : ∀ o ∈ others, Filter.Unconditional o := by
    cases shadowed <;> simp [hothers, shadowOptions, unconditional_fontOption]
  have hon : (Filter.call "drawtext" (others ++ Window.options window)).IsOnFor "drawtext"
      layer.start layer.duration := .intro hunconditional hwindow
  rw [hothers] at hon
  exact hon

theorem ShapeLayer.isOnFor {layer : ShapeLayer} {f : Filter} (h : layer.filter = .ok f) :
    f.IsOnFor "drawbox" layer.start layer.duration := by
  obtain ⟨x, y, opacity, width, height, window, hwindow, -, -, -, -, rfl⟩ := filter_forms h
  exact .intro (by simp) hwindow

theorem Scene.isOnFor_overlayFilter {start duration : Value} {x y : String}
    {window : Option Window} (h : Window.of start duration = .ok window) :
    (overlayFilter x y window).IsOnFor "overlay" start duration :=
  .intro (by simp) h

namespace Scene

variable {output : Output} {base : String} {scene : Scene} {i j : Int} {under : Pad} {s s' : Inputs}
  {n : Node} {nodes : List Node} {p q : ℚ}

/-- The window of a video in the background is the one between its two times. -/
theorem prints_backgroundWindow_iff {src : String} {trim : Trim} {start stop : Decimal}
    (hb : scene.background = .video src trim)
    (hlasts : Lasts trim.start scene.duration start stop) :
    Prints scene.BackgroundWindow p q ↔ p = start.printed ∧ q = stop.printed := by
  refine prints_iff (.video hb hlasts) fun first last h => ?_
  obtain ⟨hb', h⟩ := h
  obtain ⟨-, rfl⟩ := Background.video.inj (hb.symm.trans hb')
  exact hlasts.unique h

/-- Of all backgrounds only a video has a window. -/
theorem BackgroundStep.shows_iff (htimes : ∀ v ∈ scene.times, v.NothingOrSeconds)
    (h : BackgroundStep output scene i s n s') :
    n.Shows p q ↔ Prints scene.BackgroundWindow p q := by
  have hwindowless (hn : ∀ f ∈ n.filters, f.Windowless)
      (hvideo : ∀ src trim, scene.background ≠ .video src trim) :
      n.Shows p q ↔ Prints scene.BackgroundWindow p q := by
    refine iff_of_false ?_ ?_
    · rintro ⟨f, hf, hshows⟩
      exact hn f hf p q hshows
    · rintro ⟨first, last, ⟨hbackground, -⟩, -⟩
      exact hvideo _ _ hbackground
  cases h with
  | color hb hrate hdrawn | gradient hb hrate hdrawn =>
    refine hwindowless ?_ (by simp [hb])
    simp only [List.forall_mem_cons]
    exact ⟨Output.windowless_plainColor hdrawn, windowless_toPixelFormat, List.forall_mem_nil _⟩
  | image hb hsrc hrate hfitted hlasting =>
    obtain ⟨t, -, rfl⟩ := FilterOption.of_eq_ok.1 hlasting
    refine hwindowless ?_ (by simp [hb])
    simp only [List.forall_mem_append, List.forall_mem_cons]
    exact ⟨⟨⟨Filter.windowless_call (by decide) (by simp), windowless_fromZero,
      List.forall_mem_nil _⟩, Output.windowless_letterbox hfitted⟩,
      Filter.windowless_cut (by simp), windowless_fromZero, Output.windowless_toRate hrate,
      windowless_toPixelFormat, List.forall_mem_nil _⟩
  | @video src trim rate fitted start length stop hb hsrc hrate hstart hlength hstop hwritable hfitted =>
    have hlasts : Lasts trim.start scene.duration start stop := ⟨hstart, length, hlength, hstop⟩
    have htrim := times_of_background htimes hb
    obtain ⟨⟨r, hr⟩, t, ht⟩ :=
      hlasts.toRat? (htrim _ List.mem_cons_self) (htimes _ List.mem_cons_self)
    rw [prints_backgroundWindow_iff hb hlasts, ← Filter.shows_between (.inl rfl) hr ht]
    have hrest : ∀ f ∈ fromZero :: fitted ++ [rate, toPixelFormat], f.Windowless := by
      simp only [List.forall_mem_append, List.forall_mem_cons]
      exact ⟨⟨windowless_fromZero, Output.windowless_letterbox hfitted⟩,
        Output.windowless_toRate hrate, windowless_toPixelFormat, List.forall_mem_nil _⟩
    exact Filter.exists_shows_cons hrest

/-- A clip is used up to where its trim says, else for its duration, else for that of the scene. -/
theorem uses_of_clipStop {l : VideoLayer} {start stop : Decimal}
    (hstart : l.trim.start.toDecimal = .ok start) (h : clipStop scene l start = .ok stop) :
    l.trim.Uses (l.length scene) start stop := by
  unfold clipStop at h
  split at h
  · next hopen hduration =>
    obtain ⟨length, hlength, hstop⟩ := bind_eq_ok.1 h
    refine .lasting hopen ⟨hstart, length, ?_, hstop⟩
    simpa [VideoLayer.length, hduration] using hlength
  · next hopen hne =>
    obtain ⟨length, hlength, hstop⟩ := bind_eq_ok.1 h
    refine .lasting hopen ⟨hstart, length, ?_, hstop⟩
    unfold VideoLayer.length
    split
    · next hduration => exact absurd hduration hne
    · exact hlength
  · next hgiven _ => exact .given (fun hopen => hgiven hopen) hstart h

/-- What holds of the durations of a clip and of its scene, holds of how long the clip is shown. -/
theorem of_length {P : Value → Prop} {l : VideoLayer} (hscene : P scene.duration)
    (hl : P l.duration) : P (l.length scene) := by
  unfold VideoLayer.length
  split
  · exact hscene
  · exact hl

/-- A clip in shape has the window of the part of it that is used. -/
theorem clipFilters_shows_iff {l : VideoLayer} {shape : List Filter}
    (h : clipFilters scene l = .ok shape) (htrim : ∀ v ∈ l.trim.values, v.NothingOrSeconds)
    (hlength : (l.length scene).NothingOrSeconds) :
    (∃ f ∈ shape, f.Shows p q) ↔ Prints (l.trim.Uses (l.length scene)) p q := by
  obtain ⟨start, stop, moved, scaled, shown, hstart, hstop, -, hmoved, hscaled, hshown, rfl⟩ :=
    clipFilters_eq_ok.1 h
  have hrest : ∀ f ∈ moved :: scaled :: shown, f.Windowless := by
    simp only [List.forall_mem_cons]
    exact ⟨windowless_fromStart hmoved, Size.windowless_scale hscaled,
      windowless_opacityFilters hshown⟩
  rw [Filter.exists_shows_cons hrest]
  exact Filter.shows_uses_iff (.inl rfl) (uses_of_clipStop hstart hstop) htrim hlength

theorem prints_layerWindow {l : Layer} (h : ∀ clip, l ≠ .video clip) :
    Prints (scene.LayerWindow l) p q ↔ Prints (Lasts l.timing.1 l.timing.2) p q := by
  constructor
  · rintro ⟨first, last, hwindow, hprints⟩
    cases hwindow with
    | on hlasts => exact ⟨first, last, hlasts, hprints⟩
    | clip _ => exact absurd rfl (h _)
  · rintro ⟨first, last, hlasts, hprints⟩
    exact ⟨first, last, .on hlasts, hprints⟩

theorem prints_layerWindow_video {l : VideoLayer} : Prints (scene.LayerWindow (.video l)) p q ↔
    Prints (l.trim.Uses (l.length scene)) p q ∨ Prints (Lasts l.start l.duration) p q := by
  constructor
  · rintro ⟨first, last, hwindow, hprints⟩
    cases hwindow with
    | on hlasts => exact .inr ⟨first, last, hlasts, hprints⟩
    | clip huses => exact .inl ⟨first, last, huses, hprints⟩
  · rintro (⟨first, last, huses, hprints⟩ | ⟨first, last, hlasts, hprints⟩)
    · exact ⟨first, last, .clip huses, hprints⟩
    · exact ⟨first, last, .on hlasts, hprints⟩

/-- The windows of a layer are those of its two statements, or its one. -/
theorem LayerStep.shows_iff {layer : Layer} (htimes : ∀ v ∈ scene.times, v.NothingOrSeconds)
    (hlayer : layer ∈ scene.layers) (h : LayerStep base scene i j under s layer nodes s') :
    (∃ n ∈ nodes, n.Shows p q) ↔ Prints (scene.LayerWindow layer) p q := by
  have hlayerTimes : ∀ v ∈ layer.times, v.NothingOrSeconds := times_of_layer htimes hlayer
  obtain ⟨hstart, hduration⟩ := Layer.times_of_timing hlayerTimes
  cases h with
  | text hdrawn =>
    rw [prints_layerWindow (by simp)]
    simpa [Node.Shows, Layer.timing] using
      (TextLayer.isOnFor hdrawn).shows_iff (by decide) hstart hduration
  | @image l shape x y window hsrc hshape hposition hwindow =>
    have hnone : ¬ ∃ f ∈ shape, f.Shows p q := by
      rintro ⟨f, hf, hshows⟩
      exact windowless_imageFilters hshape f hf p q hshows
    rw [prints_layerWindow (by simp)]
    simpa [Node.Shows, Layer.timing, hnone] using
      (isOnFor_overlayFilter hwindow).shows_iff (by decide) hstart hduration
  | @video l shape x y window hsrc hshape hposition hwindow =>
    simp only [Layer.times, List.forall_mem_cons] at hlayerTimes
    have hclip : (∃ f ∈ shape, f.Shows p q) ↔ Prints (l.trim.Uses (l.length scene)) p q :=
      clipFilters_shows_iff hshape hlayerTimes.2.2
        (of_length (htimes _ List.mem_cons_self) hduration)
    have hlaid : (overlayFilter x y window).Shows p q ↔ Prints (Lasts l.start l.duration) p q :=
      (isOnFor_overlayFilter hwindow).shows_iff (by decide) hstart hduration
    rw [prints_layerWindow_video, ← hclip, ← hlaid]
    simp [Node.Shows]
  | shape hdrawn =>
    rw [prints_layerWindow (by simp)]
    simpa [Node.Shows, Layer.timing] using
      (ShapeLayer.isOnFor hdrawn).shows_iff (by decide) hstart hduration

end Scene

namespace AudioTrack

variable {anchor : Anchor} {track : AudioTrack} {t : Int} {s s' : Inputs} {n : Node} {p q : ℚ}
  {start : Decimal} {stop? : Option Decimal}

/-- A track is used up to where its trim says, else for its duration, else to its end. -/
theorem window_forms (h : track.window = .ok (start, stop?)) :
    track.trim.start.toDecimal = .ok start ∧
      ((∃ stop, stop? = some stop ∧ track.TrackWindow start stop) ∨
        stop? = none ∧ ∀ first last, ¬ track.TrackWindow first last) := by
  obtain ⟨first, hfirst, h⟩ := bind_eq_ok.1 h
  split at h
  · next hopen hduration =>
    obtain ⟨rfl, rfl⟩ := Prod.mk.inj (pure_eq_ok.1 h)
    refine ⟨hfirst, .inr ⟨rfl, ?_⟩⟩
    rintro _ _ (⟨hgiven, -, -⟩ | ⟨-, -, length, hlength, -⟩)
    · exact hgiven hopen
    · rw [hduration] at hlength
      cases hlength
  · next hopen _ =>
    obtain ⟨length, hlength, h⟩ := bind_eq_ok.1 h
    obtain ⟨last, hlast, h⟩ := bind_eq_ok.1 h
    obtain ⟨rfl, rfl⟩ := Prod.mk.inj (pure_eq_ok.1 h)
    exact ⟨hfirst, .inl ⟨last, rfl, .lasting hopen ⟨hfirst, length, hlength, hlast⟩⟩⟩
  · next hgiven _ =>
    obtain ⟨last, hlast, h⟩ := bind_eq_ok.1 h
    obtain ⟨rfl, rfl⟩ := Prod.mk.inj (pure_eq_ok.1 h)
    exact ⟨hfirst, .inl ⟨last, rfl, .given (fun hopen => hgiven hopen) hfirst hlast⟩⟩

/-- A track is cut at both ends if it has a window. -/
theorem windowFilters_shows_iff {kept : List Filter} (hwindow : track.window = .ok (start, stop?))
    (hkept : windowFilters start stop? = .ok kept)
    (htrim : ∀ v ∈ track.trim.values, v.NothingOrSeconds)
    (hduration : track.duration.NothingOrSeconds) :
    (∃ f ∈ kept, f.Shows p q) ↔ Prints track.TrackWindow p q := by
  obtain ⟨later, -, hkept⟩ := windowFilters_eq_ok.1 hkept
  have hfromZero : ∀ f ∈ [Filter.call "asetpts" [.plain "PTS-STARTPTS"]], f.Windowless := by
    simpa using Filter.windowless_call (by decide) (by simp)
  obtain ⟨hstart, ⟨stop, rfl, huses⟩ | ⟨rfl, hnone⟩⟩ := window_forms hwindow
  · rw [if_pos (by simp)] at hkept
    obtain ⟨-, rfl⟩ := hkept
    rw [Filter.exists_shows_cons hfromZero]
    exact Filter.shows_uses_iff (.inr rfl) huses htrim hduration
  · have hprints : ¬ Prints track.TrackWindow p q := by
      rintro ⟨first, last, h, -⟩
      exact hnone first last h
    refine iff_of_false ?_ hprints
    split at hkept
    · obtain ⟨-, rfl⟩ := hkept
      rw [Filter.exists_shows_cons hfromZero]
      exact Filter.windowless_cut (by simp) p q
    · simp [hkept]

/-- A track has its window, and no other filter of it has one. -/
theorem TrackStep.shows_iff (htimes : ∀ v ∈ track.times, v.NothingOrSeconds)
    (h : TrackStep anchor track t s n s') : n.Shows p q ↔ Prints track.TrackWindow p q := by
  obtain ⟨hsrc, hfilters⟩ := h
  obtain ⟨start, stop?, volume, fadeIn, fadeOut, delay, kept, louder, fadedIn, fadedOut, delayed,
    hwindow, hkept, -, hlouder, -, hfadedIn, -, hfadedOut, -, hdelayed, hfs⟩ :=
    filters_forms hfilters
  simp only [AudioTrack.times, List.forall_mem_append, List.forall_mem_cons] at htimes
  rw [← windowFilters_shows_iff hwindow hkept htimes.2 htimes.1.2.1]
  obtain ⟨hempty, rfl⟩ | ⟨-, rfl⟩ := hfs
  · obtain rfl : kept = [] := by simp_all
    have hunchanged : ¬ unchanged.Shows p q := Filter.windowless_call (by decide) (by simp) p q
    simp [Node.Shows, hunchanged]
  · have hrest : ∀ f ∈ louder ++ fadedIn ++ fadedOut ++ delayed, f.Windowless := by
      simp only [List.forall_mem_append]
      exact ⟨⟨⟨windowless_volumeFilters hlouder, windowless_fadeInFilters hfadedIn⟩,
        windowless_fadeOutFilters hfadedOut⟩, windowless_delayFilters hdelayed⟩
    rw [← Filter.exists_shows_append hrest]
    simp [Node.Shows]

end AudioTrack

/-! ## the windows of a graph -/

namespace Specification

variable {spec : Specification} {base anchor : String} {g : Graph} {n : Node} {p q : ℚ}

/-- What a statement shows is a window of the element that it is for. -/
theorem Origin.prints (htimes : ∀ v ∈ spec.times, v.NothingOrSeconds) (h : spec.Origin base n)
    (hshows : n.Shows p q) : Prints spec.HasWindow p q := by
  have hwindowless (hn : ∀ f ∈ n.filters, f.Windowless) : Prints spec.HasWindow p q := by
    obtain ⟨f, hf, hshows⟩ := hshows
    exact (hn f hf p q hshows).elim
  cases h with
  | background hscene hstep =>
    obtain ⟨first, last, hwindow, hprints⟩ :=
      (hstep.shows_iff (times_of_scene htimes hscene)).1 hshows
    exact ⟨first, last, .background hscene hwindow, hprints⟩
  | layer hscene hlayer hstep hn =>
    obtain ⟨first, last, hwindow, hprints⟩ :=
      (hstep.shows_iff (times_of_scene htimes hscene) hlayer).1 ⟨n, hn, hshows⟩
    exact ⟨first, last, .layer hscene hlayer hwindow, hprints⟩
  | joint offset k hlast hduration =>
    exact hwindowless (by simpa using Transition.windowless_filter _ _ offset)
  | track htrack hstep =>
    obtain ⟨first, last, hwindow, hprints⟩ :=
      (hstep.shows_iff (times_of_track htimes htrack)).1 hshows
    exact ⟨first, last, .track htrack hwindow, hprints⟩
  | silence hsilence =>
    obtain ⟨r, -, rfl⟩ := AudioTrack.silence_eq_ok.1 hsilence
    refine hwindowless ?_
    simp only [List.forall_mem_cons]
    exact ⟨Filter.windowless_call (by decide) (by simp), Filter.windowless_cut (by simp),
      List.forall_mem_nil _⟩
  | mix pads =>
    exact hwindowless (by simpa [AudioTrack.mixNode] using
      Filter.windowless_call (by decide) (by simp))

/-- A graph shows the windows of its specification, with their ends as filter text holds them, and
no others. -/
theorem shows_iff (htimes : ∀ v ∈ spec.times, v.NothingOrSeconds)
    (hg : spec.compile base anchor = .ok g) : g.Shows p q ↔ Prints spec.HasWindow p q := by
  constructor
  · rintro ⟨n, hn, hshows⟩
    exact (origin_of_mem hg hn).prints htimes hshows
  · rintro ⟨first, last, hwindow, hprints⟩
    cases hwindow with
    | background hscene hwindow =>
      obtain ⟨i, s, s', n, hstep, hn⟩ := backgroundStep_of_mem hg hscene
      exact ⟨n, hn, (hstep.shows_iff (times_of_scene htimes hscene)).2 ⟨_, _, hwindow, hprints⟩⟩
    | layer hscene hlayer hwindow =>
      obtain ⟨i, j, under, s, s', made, hstep, hmade⟩ := layerStep_of_mem hg hscene hlayer
      obtain ⟨n, hn, hshows⟩ :=
        (hstep.shows_iff (times_of_scene htimes hscene) hlayer).2 ⟨_, _, hwindow, hprints⟩
      exact ⟨n, hmade n hn, hshows⟩
    | track htrack hwindow =>
      obtain ⟨mode, t, s, s', n, hstep, hn⟩ := trackStep_of_mem hg htrack
      exact ⟨n, hn, (hstep.shows_iff (times_of_track htimes htrack)).2 ⟨_, _, hwindow, hprints⟩⟩

end Specification

end Storyboard
