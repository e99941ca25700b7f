import Storyboard.Command
import Storyboard.Compile.Layout
import Storyboard.Spec.Timeline
import Storyboard.Workspace

/-!
# Storyboard.Thumbnail

The picture that stands for a video.  It starts as a frame of the finished video, as an
image, or as a card in one color, which is drawn here because the engine needs a picture
to begin with; then texts and shapes are drawn over it.  The picture in between lies
beside the thumbnail, under the thumbnail's name with `_frame` or `_bg` for its
extension.
-/

namespace Storyboard

/-- What the timestamp of a frame counts from: the start of the video, or the start of
the scene that is named with it. -/
inductive TimestampMode
  | absolute
  | scene
  deriving DecidableEq, Repr

/-- The mode of a name. -/
def TimestampMode.ofName (name : String) : Except Fault TimestampMode :=
  match name with
  | "absolute" => .ok .absolute
  | "scene" => .ok .scene
  | _ => .error (.refused .modeUnknown)

namespace Specification

/-- When the frame for the thumbnail is taken.  A scene that is not named, or not there,
leaves the timestamp as it is. -/
def thumbnailTime (spec : Specification) (mode : String) : Except Fault Decimal := do
  let mode ← TimestampMode.ofName mode
  match spec.thumbnail.source with
  | .custom _ => throw (.refused .notSceneFrame)
  | .frame scene timestamp =>
    let time ← timestamp.toDecimal
    match mode with
    | .absolute => return time
    | .scene =>
      if scene = "" || (spec.scene? scene).isNone then return time
      else (← spec.sceneStart scene).add time

end Specification

namespace Thumbnail

/-- The filters that draw overlays; what cannot be drawn is left out with a note. -/
def overlayFilters (base : String) : List Layer → Action (List Filter)
  | [] => return []
  | .text l :: rest => do
    let filter ← l.filter base
    return filter :: (← overlayFilters base rest)
  | .shape l :: rest => do
    let filter ← l.filter
    return filter :: (← overlayFilters base rest)
  | layer :: rest => do
    Action.note ("thumbnail overlay " ++ layer.kind ++ " skipped")
    overlayFilters base rest

/-- The filters that turn a picture into the thumbnail: its size, then its overlays. -/
def filters (t : Thumbnail) (base : String) : Action (List Filter) := do
  let width ← FilterOption.positional t.width
  let height ← FilterOption.positional t.height
  return .call "scale" [width, height] :: (← overlayFilters base t.overlays)

/-- The same as one text. -/
def filterText (t : Thumbnail) (base : String) : Action String := do
  return String.intercalate "," ((← t.filters base).map Filter.text)

/-- The arguments that turn a picture into the thumbnail. -/
def command (t : Thumbnail) (picture outfile base : String) : Action (List String) := do
  return Command.start ++ ["-i", picture, "-vf", ← t.filterText base, "-frames:v", "1", outfile]

/-- A side of a picture, which has at least one pixel. -/
def side (v : Value) : Except Fault Nat :=
  match v with
  | .int i => if 0 < i then .ok i.toNat else .error .valueUnsuited
  | _ => .error .valueUnsuited

/-- The extensions under which a card can be kept. -/
def cardExtensions : List String := [".png", ".apng"]

/-- Draws a card in one color. -/
def drawCard (outfile color : String) (width height : Value) : Action String := do
  let shown := Color.forCard color
  match Color.rgb? shown with
  | none => throw .valueUnsuited
  | some rgb =>
    let w ← side width
    let h ← side height
    unless (← get).holds w h do throw .integerTooLarge
    unless Text.lower (Path.extension outfile) ∈ cardExtensions do throw .valueUnsuited
    Action.write outfile (.picture w h rgb)
    let size ← Command.sizeText width height
    Action.note ("thumbnail background " ++ size ++ " " ++ shown ++ " -> " ++ outfile)
    return outfile

end Thumbnail

namespace Specification

/-- The commands that make the thumbnail, in the order in which they are run. -/
def planThumbnail (spec : Specification) (video : Option String) (outfile base mode : String) :
    Action (List (List String)) := do
  let t := spec.thumbnail
  unless t.enabled do throw (.refused .thumbnailDisabled)
  let stem := Path.stem outfile
  match t.source with
  | .frame _ _ =>
    match video with
    | none => throw (.refused .videoMissing)
    | some video =>
      let frame := stem ++ "_frame.png"
      let time ← spec.thumbnailTime mode
      let take ← Command.frame video (.decimal time) frame t.width t.height
      return [take, ← t.command frame outfile base]
  | .custom background =>
    let picture ← match background with
      | .image src => pure (Path.resolve base src)
      | .color value => Thumbnail.drawCard (stem ++ "_bg.png") value t.width t.height
      | background => throw (.refused (.cardUnsupported background.kind))
    return [← t.command picture outfile base]

end Specification

end Storyboard
