import Storyboard.Proofs.Compile.Filters
import Storyboard.Proofs.Compile.Step
import Storyboard.Proofs.Number.Printed
import Storyboard.Proofs.Thumbnail.Card

/-!
# Storyboard.Proofs.Thumbnail.Commands

The commands that make a thumbnail.  The last of them turns a picture into the thumbnail; the
picture is a frame that the command before it takes out of the video, a card that was drawn, or an
image.  A frame and a card lie beside the thumbnail, under another name whatever the thumbnail is
called, so that no command writes over what it reads.

* `overlayFilters_of_ok` — overlays are drawn as in a scene, in their order;
* `command_of_ok`        — the last command;
* `Specification.plans_of_ok` — all commands, for each kind of source;
* `Specification.commands_chain` — how they hang together.
-/

namespace Storyboard

open Action Build

/-! ## overlays -/

namespace Layer

/-- Whether a layer can be drawn over a picture; images and clips cannot. -/
def isDrawn : Layer → Bool
  | .text _ | .shape _ => true
  | _ => false

/-- A filter is the one that draws a layer in a scene: wherever the layer stands in whatever scene,
the scene's statement for it is this filter, over what stands below it. -/
def DrawnBy (base : String) (layer : Layer) (f : Filter) : Prop :=
  ∀ (scene : Scene) (i j : Int) (under : Pad) (s : Inputs),
    Gives (Scene.layerNodes base scene i j layer under) s [⟨[under], [f], .layer i j⟩] s

end Layer

namespace Thumbnail

variable {t : Thumbnail} {base picture outfile : String} {w : Workspace}

/-- Each overlay that can be drawn is drawn as in a scene, in its order. -/
theorem overlayFilters_of_ok {layers : List Layer} {fs : List Filter}
    (h : (overlayFilters base layers).result w = .ok fs) :
    List.Forall₂ (Layer.DrawnBy base) (layers.filter Layer.isDrawn) fs := by
  induction layers generalizing w fs with
  | nil =>
    obtain rfl := Except.ok.inj h
    exact .nil
  | cons layer layers ih =>
    cases layer with
    | text l =>
      obtain ⟨f, hf, h⟩ := result_bind_eq_ok.1 h
      obtain ⟨more, hmore, h⟩ := result_bind_eq_ok.1 h
      obtain rfl := Except.ok.inj h
      rw [result_lift] at hf
      refine .cons (fun scene i j under s => ?_) (ih hmore)
      exact Scene.gives_layerNodes.2 (.text hf)
    | shape l =>
      obtain ⟨f, hf, h⟩ := result_bind_eq_ok.1 h
      obtain ⟨more, hmore, h⟩ := result_bind_eq_ok.1 h
      obtain rfl := Except.ok.inj h
      rw [result_lift] at hf
      refine .cons (fun scene i j under s => ?_) (ih hmore)
      exact Scene.gives_layerNodes.2 (.shape hf)
    | image l | video l | other kind form =>
      obtain ⟨-, -, h⟩ := result_bind_eq_ok.1 h
      exact ih h

/-! ## commands -/

/-- A command turns a picture into a thumbnail: it scales it to the thumbnail's size, draws the
overlays over it, and writes the outcome. -/
def Finishes (t : Thumbnail) (base picture outfile : String) (command : List String) : Prop :=
  ∃ width height fs, t.width.optionText = .ok width ∧ t.height.optionText = .ok height ∧
    List.Forall₂ (Layer.DrawnBy base) (t.overlays.filter Layer.isDrawn) fs ∧
    command = ["ffmpeg", "-y", "-i", picture, "-vf",
      String.intercalate "," (("scale=" ++ width ++ ":" ++ height) :: fs.map Filter.text),
      "-frames:v", "1", outfile]

theorem command_of_ok {command : List String}
    (h : (t.command picture outfile base).result w = .ok command) :
    t.Finishes base picture outfile command := by
  obtain ⟨text, htext, h⟩ := result_bind_eq_ok.1 h
  obtain rfl := Except.ok.inj h
  obtain ⟨fs, hfs, htext⟩ := result_bind_eq_ok.1 htext
  obtain rfl := Except.ok.inj htext
  obtain ⟨width, hwidth, hfs⟩ := result_bind_eq_ok.1 hfs
  obtain ⟨height, hheight, hfs⟩ := result_bind_eq_ok.1 hfs
  obtain ⟨overlays, hoverlays, hfs⟩ := result_bind_eq_ok.1 hfs
  obtain rfl := Except.ok.inj hfs
  rw [result_lift] at hwidth hheight
  obtain ⟨wide, hwide, rfl⟩ := FilterOption.positional_eq_ok.1 hwidth
  obtain ⟨high, hhigh, rfl⟩ := FilterOption.positional_eq_ok.1 hheight
  exact ⟨wide, high, overlays, hwide, hhigh, overlayFilters_of_ok hoverlays, rfl⟩

/-- Where the frame for a thumbnail is kept. -/
def framePath (outfile : String) : String := Path.stem outfile ++ "_frame.png"

theorem isBeside_framePath (outfile : String) : Path.IsBeside (framePath outfile) outfile :=
  Path.isBeside_stem_append Path.isMark_frame outfile

theorem isBeside_cardPath (outfile : String) : Path.IsBeside (cardPath outfile) outfile :=
  Path.isBeside_stem_append Path.isMark_card outfile

end Thumbnail

namespace Specification

open Thumbnail

variable {spec : Specification} {video : Option String} {outfile base mode : String}
  {w : Workspace} {commands : List (List String)}

/-- The commands that make a thumbnail, and the files that there are when they are planned. -/
inductive Plans (spec : Specification) (video : Option String) (outfile base mode : String)
    (w after : Workspace) : List (List String) → Prop
  | frame {scene file size : String} {timestamp : Value} {time : Decimal} {last : List String}
      (hsource : spec.thumbnail.source = .frame scene timestamp) (hvideo : video = some file)
      (htime : spec.thumbnailTime mode = .ok time)
      (hsize : Command.sizeText spec.thumbnail.width spec.thumbnail.height = .ok size)
      (hlast : spec.thumbnail.Finishes base (framePath outfile) outfile last)
      (hfiles : ∀ place, after.get? place = w.get? place) :
      Plans spec video outfile base mode w after
        [["ffmpeg", "-y", "-ss", time.shortText, "-i", file, "-vframes", "1", "-s", size,
          framePath outfile], last]
  | image {src : String} {last : List String}
      (hsource : spec.thumbnail.source = .custom (.image src))
      (hlast : spec.thumbnail.Finishes base (Path.resolve base src) outfile last)
      (hfiles : ∀ place, after.get? place = w.get? place) :
      Plans spec video outfile base mode w after [last]
  | card {color : String} {rgb : Color.RGB} {W H : Nat} {last : List String}
      (hsource : spec.thumbnail.source = .custom (.color color))
      (hrgb : Color.rgb? (Color.forCard color) = some rgb)
      (hW : 0 < W ∧ spec.thumbnail.width = .int W) (hH : 0 < H ∧ spec.thumbnail.height = .int H)
      (hlast : spec.thumbnail.Finishes base (cardPath outfile) outfile last)
      (hcard : after.get? (w.place (cardPath outfile)) = some (.picture W H rgb))
      (hfiles : ∀ place, place ≠ w.place (cardPath outfile) → after.get? place = w.get? place) :
      Plans spec video outfile base mode w after [last]

theorem frameCommand_eq_ok {file frame : String} {time : Decimal} {width height : Value}
    {command : List String} :
    Command.frame file (.decimal time) frame width height = .ok command ↔
      time.isWritable = true ∧ ∃ size, Command.sizeText width height = .ok size ∧
        command = ["ffmpeg", "-y", "-ss", time.shortText, "-i", file, "-vframes", "1", "-s", size,
          frame] := by
  have htext (t : String) : (Value.decimal time).numberText = .ok t ↔
      time.isWritable = true ∧ t = time.shortText := by
    simp only [Value.numberText_eq_ok, Value.toDecimal, Except.ok.injEq, exists_eq_left']
  simp only [Command.frame, bind_eq_ok, pure_eq_ok, htext, and_assoc, exists_and_left,
    exists_eq_left]
  rfl

theorem side_eq_ok {v : Value} {n : Nat} (h : side v = .ok n) : 0 < n ∧ v = .int n := by
  cases v with
  | int i =>
    rw [side] at h
    split at h
    · next hpos =>
      obtain rfl := Except.ok.inj h
      exact ⟨by omega, by rw [Int.toNat_of_nonneg hpos.le]⟩
    · cases h
  | _ => cases h

/-- A thumbnail that is not made has no commands. -/
theorem enabled_of_ok (h : (spec.planThumbnail video outfile base mode).result w = .ok commands) :
    spec.thumbnail.enabled = true := by
  by_contra hdisabled
  simp only [planThumbnail, hdisabled] at h
  cases h

theorem planThumbnail_frame {scene file : String} {timestamp : Value}
    (henabled : spec.thumbnail.enabled = true)
    (hsource : spec.thumbnail.source = .frame scene timestamp) :
    spec.planThumbnail (some file) outfile base mode = (do
      let time ← spec.thumbnailTime mode
      let take ← Command.frame file (.decimal time) (framePath outfile) spec.thumbnail.width
        spec.thumbnail.height
      return [take, ← spec.thumbnail.command (framePath outfile) outfile base]) := by
  simp only [planThumbnail, henabled, hsource, if_true]
  rfl

theorem planThumbnail_image {src : String} (henabled : spec.thumbnail.enabled = true)
    (hsource : spec.thumbnail.source = .custom (.image src)) :
    spec.planThumbnail video outfile base mode = (do
      return [← spec.thumbnail.command (Path.resolve base src) outfile base]) := by
  simp only [planThumbnail, henabled, hsource, if_true]
  rfl

/-- Where no card is drawn, no file changes. -/
theorem get?_after_of_cardless (h : ∀ color, spec.thumbnail.source ≠ .custom (.color color))
    (place : Parts) :
    ((spec.planThumbnail video outfile base mode).after w).get? place = w.get? place :=
  (keeps_planThumbnail fun ⟨_, color, hcolor⟩ => absurd hcolor (h color)).file

theorem plans_of_frame {scene : String} {timestamp : Value}
    (hsource : spec.thumbnail.source = .frame scene timestamp)
    (h : (spec.planThumbnail video outfile base mode).result w = .ok commands) :
    spec.Plans video outfile base mode w ((spec.planThumbnail video outfile base mode).after w)
      commands := by
  have henabled := enabled_of_ok h
  have hcardless (color : String) : spec.thumbnail.source ≠ .custom (.color color) := by
    rw [hsource]
    exact nofun
  cases video with
  | none =>
    simp only [planThumbnail, henabled, hsource, if_true] at h
    cases h
  | some file =>
    rw [planThumbnail_frame henabled hsource] at h
    obtain ⟨time, htime, h⟩ := result_bind_eq_ok.1 h
    obtain ⟨take, htake, h⟩ := result_bind_eq_ok.1 h
    obtain ⟨last, hlast, h⟩ := result_bind_eq_ok.1 h
    obtain rfl := Except.ok.inj h
    rw [result_lift] at htime htake
    obtain ⟨-, size, hsize, rfl⟩ := frameCommand_eq_ok.1 htake
    exact .frame hsource rfl htime hsize (command_of_ok hlast) (get?_after_of_cardless hcardless)

theorem plans_of_image {src : String} (hsource : spec.thumbnail.source = .custom (.image src))
    (h : (spec.planThumbnail video outfile base mode).result w = .ok commands) :
    spec.Plans video outfile base mode w ((spec.planThumbnail video outfile base mode).after w)
      commands := by
  have hcardless (color : String) : spec.thumbnail.source ≠ .custom (.color color) := by
    rw [hsource]
    exact nofun
  rw [planThumbnail_image (enabled_of_ok h) hsource] at h
  obtain ⟨last, hlast, h⟩ := result_bind_eq_ok.1 h
  obtain rfl := Except.ok.inj h
  exact .image hsource (command_of_ok hlast) (get?_after_of_cardless hcardless)

theorem plans_of_card {color : String} (hsource : spec.thumbnail.source = .custom (.color color))
    (h : (spec.planThumbnail video outfile base mode).result w = .ok commands) :
    spec.Plans video outfile base mode w ((spec.planThumbnail video outfile base mode).after w)
      commands := by
  have henabled := enabled_of_ok h
  have hafter := get?_after_planThumbnail henabled hsource video outfile base mode w
    (w.place (cardPath outfile))
  have hkeeps (place : Parts) (hplace : place ≠ w.place (cardPath outfile)) :
      ((spec.planThumbnail video outfile base mode).after w).get? place = w.get? place :=
    (keeps_planThumbnail fun _ => hplace).file
  rw [planThumbnail_card henabled hsource] at h
  obtain ⟨card, hcard, h⟩ := result_bind_eq_ok.1 h
  obtain ⟨last, hlast, h⟩ := result_bind_eq_ok.1 h
  obtain rfl := Except.ok.inj h
  obtain ⟨rfl, rgb, W, H, hrgb, hW, hH, hfile⟩ := drawCard_of_ok hcard
  exact .card hsource hrgb (side_eq_ok hW) (side_eq_ok hH) (command_of_ok hlast)
    (hafter.trans hfile) hkeeps

/-- Commands that are planned are those of one of three kinds of thumbnail. -/
theorem plans_of_ok (h : (spec.planThumbnail video outfile base mode).result w = .ok commands) :
    spec.Plans video outfile base mode w ((spec.planThumbnail video outfile base mode).after w)
      commands := by
  cases hsource : spec.thumbnail.source with
  | frame scene timestamp => exact plans_of_frame hsource h
  | custom background =>
    cases background with
    | image src => exact plans_of_image hsource h
    | color color => exact plans_of_card hsource h
    | _ =>
      simp only [planThumbnail, enabled_of_ok h, hsource, if_true] at h
      cases h

/-- A whole number is written with its digits. -/
theorem optionText_int (i : Int) : (Value.int i).optionText = .ok i.repr :=
  congrArg Except.ok (Decimal.shortText_ofInt i)

/-- How the commands for a thumbnail hang together.  They are those of the kind of its source, the
last of them writes the thumbnail, and neither of the files that they may hand on is the thumbnail
or lies in another folder.  A size of whole numbers is written with their digits. -/
theorem commands_chain (h : (spec.planThumbnail video outfile base mode).result w = .ok commands) :
    spec.Plans video outfile base mode w ((spec.planThumbnail video outfile base mode).after w)
      commands ∧
    (∃ last, commands.getLast? = some last ∧ last.getLast? = some outfile) ∧
    Path.IsBeside (framePath outfile) outfile ∧ Path.IsBeside (cardPath outfile) outfile ∧
    ∀ W H : Int, spec.thumbnail.width = .int W → spec.thumbnail.height = .int H →
      spec.thumbnail.width.optionText = .ok W.repr ∧
      spec.thumbnail.height.optionText = .ok H.repr ∧
      ∀ size, Command.sizeText spec.thumbnail.width spec.thumbnail.height = .ok size →
        size = W.repr ++ "x" ++ H.repr := by
  have hplans := plans_of_ok h
  refine ⟨hplans, ?last, isBeside_framePath outfile, isBeside_cardPath outfile, ?size⟩
  case last =>
    cases hplans with
    | frame _ _ _ _ hlast =>
      obtain ⟨_, _, _, -, -, -, rfl⟩ := hlast
      exact ⟨_, rfl, rfl⟩
    | image _ hlast =>
      obtain ⟨_, _, _, -, -, -, rfl⟩ := hlast
      exact ⟨_, rfl, rfl⟩
    | card _ _ _ _ hlast =>
      obtain ⟨_, _, _, -, -, -, rfl⟩ := hlast
      exact ⟨_, rfl, rfl⟩
  case size =>
    intro W H hwidth hheight
    rw [hwidth, hheight]
    refine ⟨optionText_int W, optionText_int H, fun size hsize => ?_⟩
    obtain ⟨wide, hwide, h⟩ := bind_eq_ok.1 hsize
    obtain ⟨high, hhigh, h⟩ := bind_eq_ok.1 h
    rw [Value.plainText_int] at hwide hhigh
    obtain ⟨-, rfl⟩ := Number.integerText_eq_ok.1 hwide
    obtain ⟨-, rfl⟩ := Number.integerText_eq_ok.1 hhigh
    exact pure_eq_ok.1 h

/-- A thumbnail that is made from a frame, with a text and a shape over it and an image that is
left out. -/
def decorated : Specification where
  scenes := [{ id := "sky", duration := 4 }]
  thumbnail := { overlays := [.text { content := "Sea" }, .image { src := "logo.png" },
    .shape { opacity := 1 }] }

/-- Its commands, for a file without an extension in a folder with one. -/
theorem commands_chain_decorated :
    let plan := decorated.planThumbnail (some "film.mp4") "out.d/still" "" "absolute"
    let commands := [
      ["ffmpeg", "-y", "-ss", "0", "-i", "film.mp4", "-vframes", "1", "-s", "1280x720",
        "out.d/still_frame.png"],
      ["ffmpeg", "-y", "-i", "out.d/still_frame.png", "-vf", "scale=1280:720," ++
        "drawtext=text='Sea':font=NotoSansKR:fontsize=48:fontcolor=#FFFFFF:borderw=0:" ++
        "bordercolor=#000000:x=(W-text_w)/2:y=(H-text_h)/2," ++
        "drawbox=x=(iw-w)/2:y=(ih-h)/2:w=100:h=100:color=#000000@1:t=fill",
        "-frames:v", "1", "out.d/still"]]
    plan.result { folder := [] } = .ok commands ∧
    decorated.Plans (some "film.mp4") "out.d/still" "" "absolute" { folder := [] }
      (plan.after { folder := [] }) commands ∧
    framePath "out.d/still" = "out.d/still_frame.png" ∧
    Path.IsBeside (framePath "out.d/still") "out.d/still" := by
  intro plan commands
  have hplan : plan.result { folder := [] } = .ok commands := by decide +kernel
  obtain ⟨hplans, -, hframe, -, -⟩ := commands_chain hplan
  exact ⟨hplan, hplans, by decide +kernel, hframe⟩

end Specification

end Storyboard
