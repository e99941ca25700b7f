import Storyboard.Compile.Inputs
import Storyboard.Compile.Layout
import Storyboard.Graph.Basic

/-!
# Storyboard.Compile.Scene

One scene as statements: a background of the size and rate of the output that lasts as
long as the scene, and over it one layer after another, each reading what the one before
it wrote.  Images and clips get a statement of their own that brings them into shape, and
a second one that lays them over the scene.
-/

namespace Storyboard

namespace Scene

/-- The pixel format of everything that takes part in a scene. -/
def pixelFormat : String := "yuva420p"

/-- The filter that brings a stream to that format. -/
def toPixelFormat : Filter := .call "format" [.plain pixelFormat]

/-- The filter that starts a stream at time zero. -/
def fromZero : Filter := .call "setpts" [.plain "PTS-STARTPTS"]

/-- The filter that starts a stream at a time; a time that is not positive is zero. -/
def fromStart (start : Value) : Except Fault Filter := do
  let d ← start.toDecimal
  if ← d.isPositive then
    return .call "setpts" [.plain ("PTS-STARTPTS+" ++ (← d.written).shortText ++ "/TB")]
  else return fromZero

/-- The filter that keeps a part of a stream. -/
def cut (start stop : Decimal) : Filter := .call "trim" [.time "start" start, .time "end" stop]

end Scene

namespace Output

/-- The size of the output as one word. -/
def canvas (output : Output) : Except Fault String := do
  return (← output.width.plainText) ++ "x" ++ (← output.height.plainText)

/-- The filter that brings a stream to the rate of the output. -/
def toRate (output : Output) : Except Fault Filter := do
  return .call "fps" [← FilterOption.positional output.fps]

/-- The filters that fit a picture into the output and fill up what is left. -/
def letterbox (output : Output) : Except Fault (List Filter) := do
  let width ← FilterOption.positional output.width
  let height ← FilterOption.positional output.height
  return [.call "scale" [width, height, .named "force_original_aspect_ratio" "decrease"],
    .call "pad" [width, height, .plain "(ow-iw)/2", .plain "(oh-ih)/2"]]

/-- The filter that makes a stream of one color. -/
def plainColor (output : Output) (color : String) (duration : Value) : Except Fault Filter := do
  let canvas ← output.canvas
  return .call "color"
    [.named "c" color, .named "s" canvas, ← FilterOption.of "d" duration,
      ← FilterOption.of "r" output.fps]

end Output

namespace Size

/-- The filter that brings an element to its size. -/
def scale (size : Size) : Except Fault Filter := do
  return .call "scale" [.plain (← scaleText size.width), .plain (← scaleText size.height)]

end Size

/-- The filters that make an element see-through; nothing is done where it is not. -/
def opacityFilters (opacity : Value) : Except Fault (List Filter) := do
  match opacity with
  | .null => return [Scene.toPixelFormat]
  | opacity =>
    if ← (← opacity.toDecimal).less (.ofInt 1) then
      return [.call "format" [.plain "rgba"],
        .call "colorchannelmixer" [← FilterOption.of "aa" opacity], Scene.toPixelFormat]
    else return [Scene.toPixelFormat]

namespace Scene

/-- The statement of a scene's background. -/
def backgroundNode (output : Output) (scene : Scene) (i : Int) : Build Node := do
  let toRate ← output.toRate
  match scene.background with
  | .color value =>
    return ⟨[], [← output.plainColor value scene.duration, toPixelFormat], .background i⟩
  | .gradient (color :: _) _ =>
    -- only the first of the colors is drawn
    return ⟨[], [← output.plainColor color scene.duration, toPixelFormat], .background i⟩
  | .gradient [] _ => throw (.inconsistent (.gradientEmpty scene.id))
  | .image src =>
    let k ← Inputs.register src
    let fitted ← output.letterbox
    let lasting := Filter.call "trim" [← FilterOption.of "duration" scene.duration]
    return ⟨[.input k .video],
      [.call "loop" [.named "loop" "-1", .named "size" "1", .named "start" "0"], fromZero]
        ++ fitted ++ [lasting, fromZero, toRate, toPixelFormat], .background i⟩
  | .video src trim =>
    let k ← Inputs.register src
    let start ← trim.start.toDecimal
    let stop ← start.add (← scene.duration.toDecimal)
    let kept := cut (← start.written) (← stop.written)
    let fitted ← output.letterbox
    return ⟨[.input k .video], [kept, fromZero] ++ fitted ++ [toRate, toPixelFormat],
      .background i⟩
  | .other kind _ => throw (.inconsistent (.backgroundUnsupported scene.id kind))

/-- The two statements that bring input `k` into shape and lay it over what was there
before. -/
def overlayNodes (i j : Int) (k : Nat) (shape : List Filter) (position : Position)
    (start duration : Value) (under : Pad) : Except Fault (List Node) := do
  let (x, y) ← position.resolve .overlay
  let window ← Window.of start duration
  return [⟨[.input k .video], shape, .media i j⟩,
    ⟨[under, .media i j],
      [.call "overlay" ([.named "x" x, .named "y" y] ++ Window.options window)], .layer i j⟩]

/-- When the part of a clip that is shown ends: where its trim says, else after the
layer's duration, else after the scene's. -/
def clipStop (scene : Scene) (layer : VideoLayer) (start : Decimal) : Except Fault Decimal :=
  match layer.trim.stop, layer.duration with
  | .null, .null => do start.add (← scene.duration.toDecimal)
  | .null, duration => do start.add (← duration.toDecimal)
  | stop, _ => stop.toDecimal

/-- The filters that bring an image into shape. -/
def imageFilters (layer : ImageLayer) : Except Fault (List Filter) := do
  let scaled ← layer.size.scale
  return scaled :: (← opacityFilters layer.opacity)

/-- The filters that cut a clip to the part that is shown, move it to its start and bring
it into shape. -/
def clipFilters (scene : Scene) (layer : VideoLayer) : Except Fault (List Filter) := do
  let start ← layer.trim.start.toDecimal
  let stop ← clipStop scene layer start
  let kept := cut (← start.written) (← stop.written)
  let moved ← fromStart layer.start
  let scaled ← layer.size.scale
  return kept :: moved :: scaled :: (← opacityFilters layer.opacity)

/-- The statements of layer `j` of scene `i`, over what `under` holds; the last of them
writes the layer's pad. -/
def layerNodes (base : String) (scene : Scene) (i j : Int) (layer : Layer) (under : Pad) :
    Build (List Node) := do
  match layer with
  | .text l => return [⟨[under], [← l.filter base], .layer i j⟩]
  | .image l =>
    let k ← Inputs.register l.src
    overlayNodes i j k (← imageFilters l) l.position l.start l.duration under
  | .video l =>
    let k ← Inputs.register l.src
    overlayNodes i j k (← clipFilters scene l) l.position l.start l.duration under
  | .shape l => return [⟨[under], [← l.filter], .layer i j⟩]
  | .other kind _ => throw (.inconsistent (.layerUnsupported scene.id kind))

/-- The statements of layers from number `j` on, and the pad they leave by. -/
def layersNodes (base : String) (scene : Scene) (i : Int) :
    Int → Pad → List Layer → Build (List Node × Pad)
  | _, under, [] => return ([], under)
  | j, under, layer :: rest => do
    let nodes ← layerNodes base scene i j layer under
    let (more, pad) ← layersNodes base scene i (j + 1) (.layer i j) rest
    return (nodes ++ more, pad)

/-- The statements of scene `i`, and the pad they leave by. -/
def compile (output : Output) (base : String) (scene : Scene) (i : Int) :
    Build (List Node × Pad) := do
  let background ← backgroundNode output scene i
  let (nodes, pad) ← layersNodes base scene i 0 background.output scene.layers
  return (background :: nodes, pad)

end Scene

end Storyboard
