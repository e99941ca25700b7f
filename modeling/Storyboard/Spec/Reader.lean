import Storyboard.Spec.Basic
import Storyboard.Spec.Field

/-!
# Storyboard.Spec.Reader

A specification from plain data.  All defaults and all limits of a specification are
here, and nowhere else: what is compiled later was accepted here.  Sections are read in a
fixed order and the fields of a section too, so of two broken demands the one that is
read first is reported.

Fields of two words are written with an underscore or with a capital; where a mapping
has both spellings, the one with the underscore counts.
-/

namespace Storyboard

namespace Spec.Field

/-- The words that fields choose from. -/
def formats : List String := ["mp4", "webm", "mov"]

/-- The video codecs. -/
def codecs : List String := ["libx264", "libx265", "libvpx-vp9"]

/-- The encoder presets. -/
def presets : List String :=
  ["ultrafast", "superfast", "veryfast", "faster", "fast", "medium", "slow", "slower", "veryslow"]

/-- The kinds of shapes. -/
def shapes : List String := ["rect", "circle", "rounded-rect"]

/-- The directions of gradients. -/
def directions : List String := ["horizontal", "vertical", "diagonal"]

/-- The alignments of texts. -/
def alignments : List String := ["left", "center", "right"]

/-- How an element can enter. -/
def entrances : List String :=
  ["fadeIn", "slideUp", "slideDown", "slideLeft", "slideRight", "zoomIn", "none"]

/-- How an element can leave. -/
def exits : List String :=
  ["fadeOut", "slideUp", "slideDown", "slideLeft", "slideRight", "zoomOut", "none"]

/-- Where subtitles can stand. -/
def subtitlePositions : List String := ["bottom", "top", "center"]

/-- The keywords for the horizontal position. -/
def columns : List String := ["center", "left", "right"]

/-- The keywords for the vertical position. -/
def rows : List String := ["center", "top", "bottom"]

/-- The transitions. -/
def transitions : List String :=
  ["none", "crossfade", "wipe-left", "wipe-right", "wipe-up", "wipe-down", "fade-black"]

/-- The kinds of audio tracks. -/
def categories : List String := ["bgm", "tts", "sfx", "voiceover"]

/-- A keyword, or any number. -/
def coordinate (keywords : List String) (place : Place) (v : Value) : Except Fault Value := do
  match v with
  | .text _ => return .text (← choice keywords place v)
  | v => number .any place v

/-- `auto`, or a number above zero. -/
def dimension (place : Place) (v : Value) : Except Fault Value :=
  match v with
  | .text "auto" => .ok v
  | v => number .aboveZero place v

/-- The items of a list, each read at its place; the first stands at number `i`. -/
def items {α : Type} (read : Place → Value → Except Fault α) (place : Place) :
    Nat → List Value → Except Fault (List α)
  | _, [] => .ok []
  | i, v :: rest => do
    let a ← read (.item place i) v
    return a :: (← items read place (i + 1) rest)

/-- The text of a value, unless there is none. -/
def optionalText (v : Value) : Except Fault (Option String) :=
  match v with
  | .null => .ok none
  | v => some <$> v.plainText

/-- The start of an element and how long it is on. -/
def timing (place : Place) (entries : Entries) : Except Fault (Value × Value) := do
  let start ← number .fromZero (.field place "start") (entries.getD "start" 0)
  let duration ← optionalNumber .aboveZero (.field place "duration") (entries.get "duration")
  return (start, duration)

end Spec.Field

open Spec.Field

namespace Output

/-- The section on encoding. -/
def ofValue (v : Value) : Except Fault Output := do
  let place := Place.root "output"
  let entries ← mappingOrNothing place v
  let d : Output := {}
  return {
    width := ← integer .aboveZero (.field place "width") (entries.getD "width" d.width)
    height := ← integer .aboveZero (.field place "height") (entries.getD "height" d.height)
    fps := ← rate (.field place "fps") (entries.getD "fps" d.fps)
    format := ← choice formats (.field place "format") (entries.getD "format" d.format)
    codec := ← choice codecs (.field place "codec") (entries.getD "codec" d.codec)
    crf := ← integer (.upTo 51) (.field place "crf") (entries.getD "crf" d.crf)
    preset := ← choice presets (.field place "preset") (entries.getD "preset" d.preset)
    sampleRate := ← integer .aboveZero (.field place "sample_rate")
      (entries.pick "sample_rate" "sampleRate" d.sampleRate) }

end Output

namespace Trim

/-- A part of a source. -/
def ofValue (place : Place) (v : Value) : Except Fault Trim := do
  match v with
  | .null => return {}
  | v =>
    let entries ← mapping place v
    return {
      start := ← number .fromZero (.field place "from") (entries.getD "from" 0)
      stop := ← optionalNumber .aboveZero (.field place "to") (entries.get "to") }

end Trim

namespace Position

/-- A position. -/
def ofValue (place : Place) (v : Value) : Except Fault Position := do
  match v with
  | .null => return {}
  | v =>
    let entries ← mapping place v
    return {
      x := ← coordinate columns (.field place "x") (entries.getD "x" "center")
      y := ← coordinate rows (.field place "y") (entries.getD "y" "center") }

end Position

namespace Size

/-- A size. -/
def ofValue (place : Place) (v : Value) : Except Fault Size := do
  match v with
  | .null => return {}
  | v =>
    let entries ← mapping place v
    return {
      width := ← dimension (.field place "width") (entries.getD "width" "auto")
      height := ← dimension (.field place "height") (entries.getD "height" "auto") }

end Size

namespace Animation

/-- How an element enters and leaves. -/
def ofValue (place : Place) (v : Value) : Except Fault Animation := do
  match v with
  | .null => return {}
  | v =>
    let entries ← mapping place v
    return {
      enter := ← choice entrances (.field place "enter") (entries.getD "enter" "none")
      exit := ← choice exits (.field place "exit") (entries.getD "exit" "none")
      enterDuration := ← number .aboveZero (.field place "enterDuration")
        (entries.pick "enter_duration" "enterDuration" 0.5)
      exitDuration := ← number .aboveZero (.field place "exitDuration")
        (entries.pick "exit_duration" "exitDuration" 0.5) }

end Animation

namespace Transition

/-- A transition. -/
def ofValue (place : Place) (v : Value) : Except Fault Transition := do
  match v with
  | .null => return {}
  | v =>
    let entries ← mapping place v
    return {
      type := ← choice transitions (.field place "type") (entries.getD "type" "none")
      duration := ← number .aboveZero (.field place "duration") (entries.getD "duration" 0.5) }

end Transition

namespace Background

/-- A background; nothing stands for black. -/
def ofValue (place : Place) (v : Value) : Except Fault Background := do
  match v with
  | .null => return default
  | v =>
    let entries ← mapping place v
    match entries.get "type" with
    | .text "color" =>
      return .color (← Spec.Field.color (.field place "value") (entries.get "value"))
    | .text "image" => return .image (← string (.field place "src") (entries.get "src"))
    | .text "video" =>
      let src ← string (.field place "src") (entries.get "src")
      return .video src (← Trim.ofValue (.field place "trim") (entries.get "trim"))
    | .text "gradient" =>
      let colorsPlace := Place.field place "colors"
      match (entries.get "colors").opened with
      | .list (a :: b :: rest) =>
        let colors ← items Spec.Field.color colorsPlace 0 (a :: b :: rest)
        let direction ← choice directions (.field place "direction")
          (entries.getD "direction" "vertical")
        return .gradient colors direction
      | _ => throw (.broken colorsPlace .twoColors)
    | type => throw (.refused (.unsupported .background (← type.plainText) place))

end Background

namespace TextStyle

/-- How a text is drawn. -/
def ofValue (place : Place) (v : Value) : Except Fault TextStyle := do
  match v with
  | .null => return {}
  | v =>
    let entries ← mapping place v
    let d : TextStyle := {}
    return {
      font := ← string (.field place "font") (entries.getD "font" d.font)
      size := ← number .aboveZero (.field place "size") (entries.getD "size" d.size)
      color := ← Spec.Field.color (.field place "color") (entries.getD "color" d.color)
      outline := ← number .fromZero (.field place "outline") (entries.getD "outline" d.outline)
      outlineColor := ← Spec.Field.color (.field place "outlineColor")
        (entries.pick "outline_color" "outlineColor" d.outlineColor)
      shadow := ← number .fromZero (.field place "shadow") (entries.getD "shadow" d.shadow)
      bold := ← boolean (.field place "bold") (entries.getD "bold" (.bool d.bold))
      italic := ← boolean (.field place "italic") (entries.getD "italic" (.bool d.italic))
      lineSpacing := ← number .any (.field place "lineSpacing")
        (entries.pick "line_spacing" "lineSpacing" d.lineSpacing)
      align := ← choice alignments (.field place "align") (entries.getD "align" d.align) }

end TextStyle

namespace TextLayer

/-- A text layer with the timing already read. -/
def ofEntries (place : Place) (entries : Entries) (start duration : Value) :
    Except Fault TextLayer := do
  return {
    content := ← string (.field place "content") (entries.get "content")
    style := ← TextStyle.ofValue (.field place "style") (entries.get "style")
    position := ← Position.ofValue (.field place "position") (entries.get "position")
    start, duration
    animation := ← Animation.ofValue (.field place "animation") (entries.get "animation") }

end TextLayer

namespace ImageLayer

/-- An image layer with the timing already read. -/
def ofEntries (place : Place) (entries : Entries) (start duration : Value) :
    Except Fault ImageLayer := do
  return {
    src := ← string (.field place "src") (entries.get "src")
    position := ← Position.ofValue (.field place "position") (entries.get "position")
    size := ← Size.ofValue (.field place "size") (entries.get "size")
    opacity := ← number (.upTo 1) (.field place "opacity") (entries.getD "opacity" 1)
    start, duration
    animation := ← Animation.ofValue (.field place "animation") (entries.get "animation") }

end ImageLayer

namespace VideoLayer

/-- A clip with the timing already read. -/
def ofEntries (place : Place) (entries : Entries) (start duration : Value) :
    Except Fault VideoLayer := do
  return {
    src := ← string (.field place "src") (entries.get "src")
    trim := ← Trim.ofValue (.field place "trim") (entries.get "trim")
    position := ← Position.ofValue (.field place "position") (entries.get "position")
    size := ← Size.ofValue (.field place "size") (entries.get "size")
    opacity := ← number (.upTo 1) (.field place "opacity") (entries.getD "opacity" 1)
    mute := ← boolean (.field place "mute") (entries.getD "mute" (.bool true))
    start, duration }

end VideoLayer

namespace ShapeLayer

/-- A shape with the timing already read; its size may not be left out. -/
def ofEntries (place : Place) (entries : Entries) (start duration : Value) :
    Except Fault ShapeLayer := do
  match entries.get "size" with
  | .null => throw (.refused (.sizeMissing (.field place "size")))
  | size =>
    return {
      shape := ← choice shapes (.field place "shape") (entries.get "shape")
      size := ← Size.ofValue (.field place "size") size
      position := ← Position.ofValue (.field place "position") (entries.get "position")
      color := ← Spec.Field.color (.field place "color") (entries.getD "color" "#000000")
      opacity := ← number (.upTo 1) (.field place "opacity") (entries.getD "opacity" 0.5)
      borderRadius := ← number .fromZero (.field place "borderRadius")
        (entries.pick "border_radius" "borderRadius" 0)
      start, duration }

end ShapeLayer

namespace Layer

/-- A layer; its timing is read before its kind is looked at. -/
def ofValue (place : Place) (v : Value) : Except Fault Layer := do
  let entries ← mapping place v
  let (start, duration) ← timing place entries
  match entries.get "type" with
  | .text "text" => return .text (← TextLayer.ofEntries place entries start duration)
  | .text "image" => return .image (← ImageLayer.ofEntries place entries start duration)
  | .text "video" => return .video (← VideoLayer.ofEntries place entries start duration)
  | .text "shape" => return .shape (← ShapeLayer.ofEntries place entries start duration)
  | type => throw (.refused (.unsupported .layer (← type.plainText) place))

end Layer

namespace Scene

/-- A scene. -/
def ofValue (place : Place) (v : Value) : Except Fault Scene := do
  let entries ← mapping place v
  let id ← string (.field place "id") (entries.get "id")
  let duration ← number .aboveZero (.field place "duration") (entries.get "duration")
  let background ← Background.ofValue (.field place "background") (entries.get "background")
  let layersPlace := Place.field place "layers"
  let layers ← items Layer.ofValue layersPlace 0
    (← listOrNothing layersPlace (entries.get "layers"))
  let transition ← Transition.ofValue (.field place "transition") (entries.get "transition")
  return { id, duration, background, layers, transition }

/-- Scenes from number `i` on, none of which may have an id of the scenes before. -/
def readAll (place : Place) (before : List String) :
    Nat → List Value → Except Fault (List Scene)
  | _, [] => .ok []
  | i, v :: rest => do
    let scene ← ofValue (.item place i) v
    if scene.id ∈ before then
      throw (.refused (.duplicateId (.field (.item place i) "id") scene.id))
    return scene :: (← readAll place (scene.id :: before) (i + 1) rest)

end Scene

namespace AudioTrack

/-- A track. -/
def ofValue (place : Place) (v : Value) : Except Fault AudioTrack := do
  let entries ← mapping place v
  let (start, duration) ← timing place entries
  let id ← optionalText (entries.get "id")
  return {
    src := ← string (.field place "src") (entries.get "src")
    category := ← choice categories (.field place "type") (entries.get "type")
    start, duration
    volume := ← number (.upTo 2) (.field place "volume") (entries.getD "volume" 1)
    fadeIn := ← number .fromZero (.field place "fadeIn") (entries.pick "fade_in" "fadeIn" 0)
    fadeOut := ← number .fromZero (.field place "fadeOut") (entries.pick "fade_out" "fadeOut" 0)
    loop := ← boolean (.field place "loop") (entries.getD "loop" (.bool false))
    trim := ← Trim.ofValue (.field place "trim") (entries.get "trim")
    id }

end AudioTrack

namespace Audio

/-- The section on sound. -/
def ofValue (v : Value) : Except Fault Audio := do
  let place := Place.root "audio"
  let entries ← mappingOrNothing place v
  let tracksPlace := Place.field place "tracks"
  let tracks ← items AudioTrack.ofValue tracksPlace 0
    (← listOrNothing tracksPlace (entries.get "tracks"))
  let masterPlace := Place.field place "master"
  let master ← mappingOrNothing masterPlace (entries.get "master")
  let volume ← number (.upTo 2) (.field masterPlace "volume") (master.getD "volume" 1)
  let normalize ← boolean (.field masterPlace "normalize") (master.getD "normalize" (.bool false))
  return { tracks, master := { volume, normalize } }

end Audio

namespace SubtitleStyle

/-- How subtitles are set. -/
def ofValue (place : Place) (v : Value) : Except Fault SubtitleStyle := do
  match v with
  | .null => return {}
  | v =>
    let entries ← mapping place v
    let d : SubtitleStyle := {}
    return {
      font := ← string (.field place "font") (entries.getD "font" d.font)
      size := ← number .aboveZero (.field place "size") (entries.getD "size" d.size)
      color := ← Spec.Field.color (.field place "color") (entries.getD "color" d.color)
      outline := ← number .fromZero (.field place "outline") (entries.getD "outline" d.outline)
      outlineColor := ← Spec.Field.color (.field place "outlineColor")
        (entries.pick "outline_color" "outlineColor" d.outlineColor)
      shadow := ← number .fromZero (.field place "shadow") (entries.getD "shadow" d.shadow)
      position := ← choice subtitlePositions (.field place "position")
        (entries.getD "position" d.position)
      marginV := ← number .any (.field place "marginV")
        (entries.pick "margin_v" "marginV" d.marginV) }

end SubtitleStyle

namespace Subtitle

/-- Whether the second of two numbers does not come after the first. -/
def notAfter (start stop : Value) : Bool :=
  match number? start, number? stop with
  | some x, some y => y.le x
  | _, _ => false

/-- A subtitle. -/
def ofValue (place : Place) (v : Value) : Except Fault Subtitle := do
  let entries ← mapping place v
  let start ← number .fromZero (.field place "start") (entries.get "start")
  let stop ← number .aboveZero (.field place "end") (entries.get "end")
  if notAfter start stop then throw (.broken (.field place "end") .afterStart)
  return {
    start, stop
    text := ← string (.field place "text") (entries.get "text")
    style := ← SubtitleStyle.ofValue (.field place "style") (entries.get "style") }

end Subtitle

namespace ThumbnailSource

/-- What a thumbnail is made from. -/
def ofValue (place : Place) (v : Value) : Except Fault ThumbnailSource := do
  match v with
  | .null => return default
  | v =>
    let entries ← mapping place v
    match entries.get "type" with
    | .text "scene" =>
      match entries.pick "scene_id" "sceneId" "" with
      | .text scene =>
        let timestamp ← number .fromZero (.field place "timestamp") (entries.getD "timestamp" 0)
        return .frame scene timestamp
      | _ => throw (.broken (.field place "sceneId") .string)
    | .text "custom" =>
      let backgroundPlace := Place.field place "background"
      let background ← Background.ofValue backgroundPlace (entries.get "background")
      match background with
      | .color _ | .image _ => return .custom background
      | _ => throw (.broken backgroundPlace .colorOrImage)
    | type => throw (.refused (.unsupported .thumbnailSource (← type.plainText) place))

end ThumbnailSource

namespace Thumbnail

/-- The section on the thumbnail. -/
def ofValue (v : Value) : Except Fault Thumbnail := do
  let place := Place.root "thumbnail"
  let entries ← mappingOrNothing place v
  let d : Thumbnail := {}
  let source ← ThumbnailSource.ofValue (.field place "source") (entries.get "source")
  let overlaysPlace := Place.field place "overlays"
  let overlays ← items Layer.ofValue overlaysPlace 0
    (← listOrNothing overlaysPlace (entries.get "overlays"))
  return {
    enabled := ← boolean (.field place "enabled") (entries.getD "enabled" (.bool d.enabled))
    width := ← integer .aboveZero (.field place "width") (entries.getD "width" d.width)
    height := ← integer .aboveZero (.field place "height") (entries.getD "height" d.height)
    source, overlays }

end Thumbnail

namespace Specification

/-- The scenes of a specification; there is at least one. -/
def scenesOf (entries : Entries) : Except Fault (List Scene) :=
  match (entries.get "scenes").opened with
  | .list (v :: rest) => Scene.readAll (.root "scenes") [] 0 (v :: rest)
  | _ => .error (.broken (.root "scenes") .filledList)

/-- A specification from the entries at its top. -/
def ofEntries (entries : Entries) : Except Fault Specification := do
  let scenes ← scenesOf entries
  let title ← optionalText (entries.get "title")
  let output ← Output.ofValue (entries.get "output")
  let audio ← Audio.ofValue (entries.get "audio")
  let subtitlesPlace := Place.root "subtitles"
  let subtitles ← items Subtitle.ofValue subtitlesPlace 0
    (← listOrNothing subtitlesPlace (entries.get "subtitles"))
  let thumbnail ← Thumbnail.ofValue (entries.get "thumbnail")
  let version ← (entries.getD "version" "1.0").plainText
  return { scenes, output, audio, subtitles, thumbnail, version, title }

/-- A specification. -/
def ofValue (v : Value) : Except Fault Specification :=
  match v.opened with
  | .map entries => ofEntries entries
  | _ => .error (.refused .specNotMapping)

end Specification

end Storyboard
