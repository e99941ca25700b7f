import Storyboard.Graph.Escape
import Storyboard.Graph.Filter
import Storyboard.Path
import Storyboard.Spec.Basic
import Storyboard.Text.Case

/-!
# Storyboard.Compile.Layout

Where and when an element is drawn, and the two filters that draw without an input of
their own.  A position is a number of pixels or an expression in the sizes of the canvas
and the element; a visibility window is written as a product of conditions on the time
`t`, and no window is written where an element is on all the time.
-/

namespace Storyboard

open Text

/-- The names of the sizes of canvas and element that a position is written in. -/
structure Frame where
  canvasWidth : String
  canvasHeight : String
  width : String
  height : String

namespace Frame

/-- The names inside the filter that lays one stream over another. -/
def overlay : Frame := ⟨"W", "H", "overlay_w", "overlay_h"⟩

/-- The names inside the filter that draws a text. -/
def drawnText : Frame := ⟨"W", "H", "text_w", "text_h"⟩

/-- The names inside the filter that draws a box. -/
def drawnBox : Frame := ⟨"iw", "ih", "w", "h"⟩

end Frame

namespace Position

/-- One coordinate, for the sizes of canvas and element on its axis.  A number is a
number of pixels; a keyword of the other axis counts as the same side of this one, and
anything else as the near side. -/
def axis (value : Value) (canvas size : String) : Except Fault String :=
  match value with
  | .int i => (Value.int i).numberText
  | .float x => (Value.float x).numberText
  | .text "center" => .ok ("(" ++ canvas ++ "-" ++ size ++ ")/2")
  | .text "right" => .ok (canvas ++ "-" ++ size)
  | .text "bottom" => .ok (canvas ++ "-" ++ size)
  | _ => .ok "0"

/-- Both coordinates. -/
def resolve (p : Position) (frame : Frame) : Except Fault (String × String) := do
  return (← axis p.x frame.canvasWidth frame.width, ← axis p.y frame.canvasHeight frame.height)

end Position

/-- The time in which an element is on; without an end it stays. -/
structure Window where
  start : Decimal
  stop? : Option Decimal
  deriving DecidableEq, Repr

namespace Window

/-- The window of an element that is on from `start` for `duration`, or from `start` on
if there is no duration; none if that is all the time. -/
def of (start duration : Value) : Except Fault (Option Window) := do
  let first ← start.toDecimal
  match duration with
  | .null => if ← first.isPositive then return some ⟨← first.written, none⟩ else return none
  | duration =>
    let last ← first.add (← duration.toDecimal)
    return some ⟨← first.written, some (← last.written)⟩

/-- A window as a condition between quotes. -/
def text (w : Window) : String :=
  "'gte(t," ++ w.start.shortText ++ ")" ++
    (w.stop?.elim "" fun stop => "*lt(t," ++ stop.shortText ++ ")") ++ "'"

/-- The option that keeps a filter to a window. -/
def options (w : Option Window) : List FilterOption :=
  w.elim [] fun w => [.named "enable" w.text]

end Window

namespace Size

/-- One dimension for scaling: `-1` follows from the other. -/
def scaleText (value : Value) : Except Fault String :=
  match value with
  | .text "auto" => .ok "-1"
  | value => value.numberText

/-- The side of a shape whose size is not given. -/
def shapeSide : Value := 100

/-- One dimension of a shape. -/
def shapeDimension (value : Value) : Value :=
  match value with
  | .text "auto" => shapeSide
  | value => value

end Size

/-- Whether the name of a font is a path: a font file's extension in any case, or a
slash. -/
def isFontFile (font : String) : Bool :=
  [".ttf", ".otf", ".ttc"].any (endsWith (lower font)) || font.toList.contains '/'

/-- The option that chooses a font, by file or by name. -/
def fontOption (font base : String) : FilterOption :=
  if isFontFile font then .named "fontfile" (Graph.Escape.valueText (Path.resolve base font))
  else .named "font" (Graph.Escape.valueText font)

/-- The filter that draws a text. -/
def TextLayer.filter (layer : TextLayer) (base : String) : Except Fault Filter := do
  let style := layer.style
  let (x, y) ← layer.position.resolve .drawnText
  let shadowed ← (← style.shadow.toDecimal).isPositive
  let window ← Window.of layer.start layer.duration
  let size ← FilterOption.of "fontsize" style.size
  let outline ← FilterOption.of "borderw" style.outline
  let shadow ← if shadowed then
      pure [← FilterOption.of "shadowx" style.shadow, ← FilterOption.of "shadowy" style.shadow]
    else pure []
  return .call "drawtext"
    ([.named "text" ("'" ++ Graph.Escape.contentText layer.content ++ "'"),
      fontOption style.font base, size, .named "fontcolor" style.color, outline,
      .named "bordercolor" style.outlineColor]
      ++ shadow ++ [.named "x" x, .named "y" y] ++ Window.options window)

/-- The filter that draws a shape; every shape is drawn as a filled rectangle. -/
def ShapeLayer.filter (layer : ShapeLayer) : Except Fault Filter := do
  let (x, y) ← layer.position.resolve .drawnBox
  let opacity ← layer.opacity.numberText
  let window ← Window.of layer.start layer.duration
  let width ← FilterOption.of "w" (Size.shapeDimension layer.size.width)
  let height ← FilterOption.of "h" (Size.shapeDimension layer.size.height)
  return .call "drawbox"
    ([.named "x" x, .named "y" y, width, height,
      .named "color" (layer.color ++ "@" ++ opacity), .named "t" "fill"]
      ++ Window.options window)

end Storyboard
