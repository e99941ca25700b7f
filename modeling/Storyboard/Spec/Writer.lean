import Storyboard.Spec.Basic
import Storyboard.Number.Ratio

/-!
# Storyboard.Spec.Writer

A specification as plain data again.  Every field is written, also where it holds what it would
hold if it were left out; a field of two words is written with an underscore.  What is absent is
written as `null`, and an exact frame rate as a text, which is why a specification with a rate of
too many digits cannot be written.
-/

namespace Storyboard

open Number

/-- A frame rate: an exact quotient as a text, any other number as it is. -/
def Value.ofRate : Value → Except Fault Value
  | .ratio q => .text <$> ratioText q
  | v => .ok v

/-- A text, or nothing. -/
def Value.ofText? (s : Option String) : Value := s.elim .null .text

/-- Several values as a list. -/
def Value.ofList {α : Type} (write : α → Value) (as : List α) : Value := .list (as.map write)

def Trim.toValue (t : Trim) : Value := .map [("from", t.start), ("to", t.stop)]

def Position.toValue (p : Position) : Value := .map [("x", p.x), ("y", p.y)]

def Size.toValue (s : Size) : Value := .map [("width", s.width), ("height", s.height)]

def Animation.toValue (a : Animation) : Value :=
  .map [("enter", a.enter), ("exit", a.exit), ("enter_duration", a.enterDuration),
    ("exit_duration", a.exitDuration)]

def Transition.toValue (t : Transition) : Value :=
  .map [("type", t.type), ("duration", t.duration)]

/-- A background; what is none stands for itself. -/
def Background.toValue : Background → Value
  | .color value => .map [("type", "color"), ("value", value)]
  | .image src => .map [("type", "image"), ("src", src)]
  | .video src trim => .map [("type", "video"), ("src", src), ("trim", trim.toValue)]
  | .gradient colors direction =>
    .map [("type", "gradient"), ("colors", .ofList .text colors), ("direction", direction)]
  | .other _ form => form

def TextStyle.toValue (s : TextStyle) : Value :=
  .map [("font", s.font), ("size", s.size), ("color", s.color), ("outline", s.outline),
    ("outline_color", s.outlineColor), ("shadow", s.shadow), ("bold", .bool s.bold),
    ("italic", .bool s.italic), ("line_spacing", s.lineSpacing), ("align", s.align)]

def TextLayer.toValue (l : TextLayer) : Value :=
  .map [("type", "text"), ("content", l.content), ("style", l.style.toValue),
    ("position", l.position.toValue), ("start", l.start), ("duration", l.duration),
    ("animation", l.animation.toValue)]

def ImageLayer.toValue (l : ImageLayer) : Value :=
  .map [("type", "image"), ("src", l.src), ("position", l.position.toValue),
    ("size", l.size.toValue), ("opacity", l.opacity), ("start", l.start),
    ("duration", l.duration), ("animation", l.animation.toValue)]

def VideoLayer.toValue (l : VideoLayer) : Value :=
  .map [("type", "video"), ("src", l.src), ("trim", l.trim.toValue),
    ("position", l.position.toValue), ("size", l.size.toValue), ("opacity", l.opacity),
    ("mute", .bool l.mute), ("start", l.start), ("duration", l.duration)]

def ShapeLayer.toValue (l : ShapeLayer) : Value :=
  .map [("type", "shape"), ("shape", l.shape), ("size", l.size.toValue),
    ("position", l.position.toValue), ("color", l.color), ("opacity", l.opacity),
    ("border_radius", l.borderRadius), ("start", l.start), ("duration", l.duration)]

/-- A layer; what is none stands for itself. -/
def Layer.toValue : Layer → Value
  | .text l => l.toValue
  | .image l => l.toValue
  | .video l => l.toValue
  | .shape l => l.toValue
  | .other _ form => form

def Scene.toValue (s : Scene) : Value :=
  .map [("id", s.id), ("duration", s.duration), ("background", s.background.toValue),
    ("layers", .ofList Layer.toValue s.layers), ("transition", s.transition.toValue)]

def Output.toValue (o : Output) : Except Fault Value := do
  return .map [("width", o.width), ("height", o.height), ("fps", ← o.fps.ofRate),
    ("format", o.format), ("codec", o.codec), ("crf", o.crf), ("preset", o.preset),
    ("sample_rate", o.sampleRate)]

def AudioTrack.toValue (t : AudioTrack) : Value :=
  .map [("src", t.src), ("type", t.category), ("start", t.start), ("duration", t.duration),
    ("volume", t.volume), ("fade_in", t.fadeIn), ("fade_out", t.fadeOut), ("loop", .bool t.loop),
    ("trim", t.trim.toValue), ("id", .ofText? t.id)]

def AudioMaster.toValue (m : AudioMaster) : Value :=
  .map [("volume", m.volume), ("normalize", .bool m.normalize)]

def Audio.toValue (a : Audio) : Value :=
  .map [("tracks", .ofList AudioTrack.toValue a.tracks), ("master", a.master.toValue)]

def SubtitleStyle.toValue (s : SubtitleStyle) : Value :=
  .map [("font", s.font), ("size", s.size), ("color", s.color), ("outline", s.outline),
    ("outline_color", s.outlineColor), ("shadow", s.shadow), ("position", s.position),
    ("margin_v", s.marginV)]

def Subtitle.toValue (s : Subtitle) : Value :=
  .map [("start", s.start), ("end", s.stop), ("text", s.text), ("style", s.style.toValue)]

def ThumbnailSource.toValue : ThumbnailSource → Value
  | .frame scene timestamp =>
    .map [("type", "scene"), ("scene_id", scene), ("timestamp", timestamp)]
  | .custom background => .map [("type", "custom"), ("background", background.toValue)]

def Thumbnail.toValue (t : Thumbnail) : Value :=
  .map [("enabled", .bool t.enabled), ("width", t.width), ("height", t.height),
    ("source", t.source.toValue), ("overlays", .ofList Layer.toValue t.overlays)]

/-- A specification written out in full, with the names under which it is read. -/
def Specification.toValue (s : Specification) : Except Fault Value := do
  return .map [("scenes", .ofList Scene.toValue s.scenes), ("output", ← s.output.toValue),
    ("audio", s.audio.toValue), ("subtitles", .ofList Subtitle.toValue s.subtitles),
    ("thumbnail", s.thumbnail.toValue), ("version", s.version), ("title", .ofText? s.title)]

end Storyboard
