import Storyboard.Proofs.Compile.Windows
import Storyboard.Proofs.Graph.Visible

/-!
# Storyboard.Proofs.Compile.Visibility

When a layer is to be seen.  The statement that draws a layer, or lays it over a scene, is on from
the start of the layer until its duration is over, or for good if it has none.  The clip of a layer
has its pictures at just the times at which the layer is on, for as long as a part of the clip is
used.  Neither a start at zero nor a duration that is left out makes a difference.

* `Filter.IsOnFor.isOn?_eq` — a filter that is kept to the window of an element;
* `Scene.span?_clipFilters` — a clip that is cut and moved;
* `Scene.visible_compile` — the layers of a scene.
-/

namespace Storyboard

open Build Decimal

/-! ## times -/

namespace Value

/-- How long something lasts: for a time, or for good if nothing is given. -/
inductive IsSpell (v : Value) : Option ℚ → Prop
  | forGood (h : v = .null) : IsSpell v none
  | lasting {q : ℚ} (h : v.IsMoment q) : IsSpell v (some q)

end Value

/-! ## filters that are kept to a window -/

/-- Without a duration there is a window only if the start is not zero. -/
theorem Window.of_null_eq_ok {start : Value} {window : Option Window} :
    Window.of start .null = .ok window ↔ ∃ first later, start.toDecimal = .ok first ∧
      first.isPositive = .ok later ∧ if later then
        first.isWritable = true ∧ window = some ⟨first, none⟩ else window = none := by
  simp only [Window.of, bind_eq_ok]
  refine exists_congr fun first => ?_
  simp only [exists_and_left]
  refine and_congr_right fun _ => exists_congr fun later => and_congr_right fun _ => ?_
  split
  · rw [Decimal.written_bind_eq_ok, pure_eq_ok]
  · exact pure_eq_ok

namespace Filter

variable {name : String} {start duration : Value} {f : Filter} {p t : ℚ} {length? : Option ℚ}

/-- What is kept to the window of an element is on from its start until its duration is over. -/
theorem IsOnFor.isOn?_eq (h : f.IsOnFor name start duration) (hstart : start.IsMoment p)
    (hlength : duration.IsSpell length?) (ht : 0 ≤ t) :
    f.isOn? t = some (decide (p ≤ t ∧ ∀ length ∈ length?, t < p + length)) := by
  obtain ⟨hothers, hwindow⟩ := h
  cases hlength with
  | forGood hnull =>
    subst hnull
    obtain ⟨first, later, hfirst, hlater, hopen⟩ := Window.of_null_eq_ok.1 hwindow
    rw [isPositive_eq (hstart.toRat? hfirst)] at hlater
    obtain rfl := Except.ok.inj hlater
    by_cases hp : 0 < p
    · rw [decide_eq_true hp, if_pos rfl] at hopen
      obtain ⟨-, rfl⟩ := hopen
      rw [isOn?_while hothers, Window.value?_text_open (hstart.denotes hfirst)]
      by_cases hon : p ≤ t <;> simp [hon]
    · -- a start at zero is no condition at all on times from zero on
      have hon : p ≤ t := (not_lt.1 hp).trans ht
      rw [decide_eq_false hp, if_neg Bool.false_ne_true] at hopen
      rw [hopen, isOn?_always hothers]
      simp [hon]
  | @lasting length hduration =>
    obtain ⟨first, hfirst, ⟨hnull, -⟩ | ⟨span, last, hspan, hlast, rfl⟩⟩ :=
      Window.of_forms hwindow
    · exact absurd hnull hduration.ne_null
    · have hlasts : Value.Lasts start duration first last := ⟨hfirst, span, hspan, hlast⟩
      obtain ⟨hp, hq⟩ := hlasts.denotes hstart hduration
      rw [isOn?_while hothers, Window.value?_text hp hq]
      by_cases hon : p ≤ t ∧ t < p + length <;> simp [hon]

end Filter

/-! ## clips -/

/-- For how long a clip of which a part from `first` on is used is shown: up to where its trim
says, else for its duration, else for that of the scene. -/
inductive VideoLayer.IsShownFor (scene : Scene) (l : VideoLayer) (first : ℚ) : ℚ → Prop
  | given {last : ℚ} (h : l.trim.stop.IsMoment last) (hlater : first < last) :
      IsShownFor scene l first (last - first)
  | lasting {length : ℚ} (hopen : l.trim.stop = .null) (h : l.duration.IsMoment length) :
      IsShownFor scene l first length
  | withScene {length : ℚ} (hopen : l.trim.stop = .null) (hforGood : l.duration = .null)
      (h : scene.duration.IsMoment length) : IsShownFor scene l first length

namespace Scene

variable {scene : Scene} {l : VideoLayer} {fs : List Filter} {first length p : ℚ} {x : Span}

/-- The part of a clip that is kept is as long as the clip is shown. -/
theorem denotes_of_clipStop {start stop : Decimal} (hstart : l.trim.start.toDecimal = .ok start)
    (hfirst : l.trim.start.IsMoment first) (h : clipStop scene l start = .ok stop)
    (hshown : l.IsShownFor scene first length) :
    Numeral.Denotes stop.shortText (first + length) := by
  have huses := uses_of_clipStop hstart h
  cases hshown with
  | given hlast _ =>
    cases huses with
    | given _ _ hstop =>
      rw [add_sub_cancel]
      exact hlast.denotes hstop
    | lasting hopen _ => exact absurd hopen hlast.ne_null
  | lasting hopen hduration =>
    cases huses with
    | given hgiven _ _ => exact absurd hopen hgiven
    | lasting _ hlasts =>
      have hlength : l.length scene = l.duration := by
        unfold VideoLayer.length
        split
        · next hnull => exact absurd hnull hduration.ne_null
        · rfl
      rw [hlength] at hlasts
      exact (hlasts.denotes hfirst hduration).2
  | withScene hopen hforGood hduration =>
    cases huses with
    | given hgiven _ _ => exact absurd hopen hgiven
    | lasting _ hlasts =>
      rw [VideoLayer.length, hforGood] at hlasts
      exact (hlasts.denotes hfirst hduration).2

/-- A stream that was cut starts at a time, and is as long as it was. -/
theorem span?_fromStart {start : Value} {f : Filter} (h : fromStart start = .ok f)
    (hstart : start.IsMoment p) (hp : 0 ≤ p) : f.span? x = some ⟨p, p + (x.last - x.first)⟩ := by
  obtain ⟨d, hd, h⟩ := bind_eq_ok.1 h
  obtain ⟨later, hlater, h⟩ := bind_eq_ok.1 h
  rw [isPositive_eq (hstart.toRat? hd)] at hlater
  obtain rfl := Except.ok.inj hlater
  split at h
  · obtain ⟨-, h⟩ := Decimal.written_bind_eq_ok.1 h
    obtain rfl := pure_eq_ok.1 h
    have hread := Filter.startOf?_shifted (hstart.denotes hd)
    simp [Filter.span?, hread]
  · next hzero =>
    obtain rfl := pure_eq_ok.1 h
    obtain rfl : p = 0 := le_antisymm (not_lt.1 (by simpa using hzero)) hp
    rw [Filter.span?_fromZero, zero_add]

theorem span?_opacityFilters {opacity : Value} (h : opacityFilters opacity = .ok fs) :
    fs.foldlM (fun x f => f.span? x) x = some x := by
  obtain rfl | ⟨a, -, rfl⟩ := opacityFilters_forms h <;> rfl

/-- The pictures of a clip are at the times at which its layer is on. -/
theorem span?_clipFilters (h : clipFilters scene l = .ok fs) (hstart : l.start.IsMoment p)
    (hp : 0 ≤ p) (hfirst : l.trim.start.IsMoment first) (hshown : l.IsShownFor scene first length)
    (hbefore : x.first ≤ first) (hafter : first + length ≤ x.last) :
    fs.foldlM (fun x f => f.span? x) x = some ⟨p, p + length⟩ := by
  obtain ⟨start, stop, moved, scaled, shown, hfrom, hstop, -, hmoved, hscaled, hopacity, rfl⟩ :=
    clipFilters_eq_ok.1 h
  have hcut := Filter.span?_cut (hfirst.denotes hfrom)
    (denotes_of_clipStop hfrom hfirst hstop hshown) hbefore hafter
  obtain ⟨width, height, -, -, rfl⟩ := Size.scale_eq_ok.1 hscaled
  simp only [List.foldlM_cons, hcut, Option.bind_eq_bind, Option.bind_some,
    span?_fromStart hmoved hstart hp, Filter.span?_of_timeless (by decide : "scale" ∈ _),
    span?_opacityFilters hopacity, add_sub_cancel_left]

end Scene

/-! ## layers -/

/-- What the filter of a layer is called that makes it visible. -/
def Layer.effect : Layer → String
  | .text _ => "drawtext"
  | .image _ | .video _ => "overlay"
  | .shape _ => "drawbox"
  | .other _ _ => ""

/-- The one of some statements that writes a pad. -/
structure Node.IsWriter (n : Node) (nodes : List Node) (p : Pad) : Prop where
  mem : n ∈ nodes
  output : n.output = p
  unique : ∀ m ∈ nodes, m.output = p → m = n

theorem Writes.isWriter {P : Pad → Prop} {nodes : List Node} {n : Node} (h : Writes P nodes)
    (hn : n ∈ nodes) : n.IsWriter nodes n.output where
  mem := hn
  output := rfl
  unique _ hm hout := List.inj_on_of_nodup_map h.nodup hm hn hout

namespace Scene

variable {output : Output} {base : String} {scene : Scene} {i j : Int} {under pad : Pad}
  {s s' : Inputs} {nodes : List Node} {layer : Layer}

/-- A layer is made visible by one filter that is kept to its window. -/
theorem LayerStep.exists_isOnFor (h : LayerStep base scene i j under s layer nodes s') :
    ∃ n ∈ nodes, n.output = .layer i j ∧ ∃ f, n.filters = [f] ∧
      f.IsOnFor layer.effect layer.timing.1 layer.timing.2 := by
  cases h with
  | text hdrawn => exact ⟨_, List.mem_cons_self, rfl, _, rfl, TextLayer.isOnFor hdrawn⟩
  | image hsrc hshape hposition hwindow =>
    exact ⟨_, List.mem_cons_of_mem _ List.mem_cons_self, rfl, _, rfl, isOnFor_overlayFilter hwindow⟩
  | video hsrc hshape hposition hwindow =>
    exact ⟨_, List.mem_cons_of_mem _ List.mem_cons_self, rfl, _, rfl, isOnFor_overlayFilter hwindow⟩
  | shape hdrawn => exact ⟨_, List.mem_cons_self, rfl, _, rfl, ShapeLayer.isOnFor hdrawn⟩

/-- A layer of a scene is visible when it is said to be: the statement that it is drawn or laid
over by is on from its start until its duration is over, and its clip, if it is one, has pictures
from its start on for as long as a part of it is used, if the file has these pictures. -/
theorem visible_compile {k : Nat} {start : ℚ} {length? : Option ℚ}
    (h : Gives (compile output base scene i) s (nodes, pad) s')
    (hlayer : scene.layers[k]? = some layer) (hstart : layer.timing.1.IsMoment start)
    (hlength : layer.timing.2.IsSpell length?) (hzero : 0 ≤ start) :
    (∃ n : Node, n.IsWriter nodes (.layer i k) ∧
      ∃ options, n.filters = [.call layer.effect options] ∧
        ∀ t, 0 ≤ t → (Filter.call layer.effect options).isOn? t
          = some (decide (start ≤ t ∧ ∀ length ∈ length?, t < start + length))) ∧
    ∀ l, layer = .video l → ∃ n : Node, n.IsWriter nodes (.media i k) ∧
      (∃ file : Nat, n.inputs = [.input file .video]) ∧
      ∀ first shown, l.trim.start.IsMoment first → l.IsShownFor scene first shown →
        ∀ source : Span, source.first ≤ first → first + shown ≤ source.last →
          n.span? source = some ⟨start, start + shown⟩ := by
  have hwrites := writes_scene h
  obtain ⟨background, u, more, -, hmore, rfl⟩ := gives_scene.1 h
  obtain ⟨under, t, t', made, hstep, hmade⟩ := layerStep_of_getElem? hmore hlayer
  rw [zero_add] at hstep
  have hwriter {n : Node} (hn : n ∈ made) : n.IsWriter (background :: more) n.output :=
    hwrites.isWriter (List.mem_cons_of_mem _ (hmade n hn))
  constructor
  · obtain ⟨n, hn, hout, f, hf, hon⟩ := hstep.exists_isOnFor
    obtain ⟨options, rfl⟩ : ∃ options, f = .call layer.effect options := by
      cases hon
      exact ⟨_, rfl⟩
    exact ⟨n, hout ▸ hwriter hn, options, hf, fun t ht => hon.isOn?_eq hstart hlength ht⟩
  · rintro l rfl
    cases hstep with
    | video hsrc hshape hposition hwindow =>
      refine ⟨_, hwriter List.mem_cons_self, ⟨_, rfl⟩, ?_⟩
      intro first shown hfirst hshown source hbefore hafter
      exact span?_clipFilters hshape hstart hzero hfirst hshown hbefore hafter

/-- A clip that is laid over a scene for longer than the part of it that is used. -/
def shortClip : VideoLayer where
  src := "clip.mp4"
  trim := { start := 4, stop := 9 }
  start := 2
  duration := 7

/-- A scene with a layer of each kind. -/
def layeredScene : Scene where
  id := "sky"
  duration := 10
  layers := [.text { content := "hi" }, .image { src := "logo.png", start := 1 },
    .shape { start := 3, duration := 4 }, .video shortClip]

theorem visible_layeredScene : ∃ nodes pad s',
    Gives (compile {} "/media" layeredScene 0) ⟨"/media", []⟩ (nodes, pad) s' ∧
    (∃ n : Node, n.IsWriter nodes (.layer 0 3) ∧ ∃ options, n.filters = [.call "overlay" options] ∧
      ∀ t, 0 ≤ t → (Filter.call "overlay" options).isOn? t = some (decide (2 ≤ t ∧ t < 9))) ∧
    ∃ n : Node, n.IsWriter nodes (.media 0 3) ∧ n.span? ⟨0, 60⟩ = some ⟨2, 7⟩ := by
  have hok : ((compile {} "/media" layeredScene 0).run.run ⟨"/media", []⟩).1.isOk = true := by
    decide +kernel
  obtain ⟨⟨nodes, pad⟩, s', hgives⟩ := exists_gives hok
  have hstart : shortClip.start.IsMoment 2 := .ofNat (by norm_num)
  have hfirst : shortClip.trim.start.IsMoment 4 := .ofNat (by norm_num)
  have hlast : shortClip.trim.stop.IsMoment 9 := .ofNat (by norm_num)
  have hduration : shortClip.duration.IsSpell (some 7) := .lasting (.ofNat (by norm_num))
  obtain ⟨⟨n, hn, options, hoptions, hon⟩, hclip⟩ :=
    visible_compile (k := 3) hgives rfl hstart hduration (by norm_num)
  obtain ⟨m, hm, -, hspan⟩ := hclip shortClip rfl
  refine ⟨nodes, pad, _, hgives, ⟨n, hn, options, hoptions, fun t ht => ?_⟩, m, hm, ?_⟩
  · have hend : (2 : ℚ) + 7 = 9 := by norm_num
    refine (hon t ht).trans ?_
    simp [hend]
  · have hshown := hspan 4 _ hfirst (.given hlast (by norm_num)) ⟨0, 60⟩ (by norm_num) (by norm_num)
    have hend : (2 : ℚ) + (9 - 4) = 7 := by norm_num
    rwa [hend] at hshown

end Scene

end Storyboard
