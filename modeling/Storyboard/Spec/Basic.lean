import Storyboard.Value

/-!
# Storyboard.Spec.Basic

What a video is made of: scenes one after another, each a background with layers over
it and a transition to the next scene; audio tracks under all of them; subtitles; and a
thumbnail.

Numbers are kept as plain values, in the form in which they were given, because the
text of a compiled graph depends on it.  Backgrounds and layers are closed sets of
variants; an element of any other kind is kept under the name of its kind (`other`), and
whoever meets one refuses it by that name.
-/

namespace Storyboard

/-- How the video is encoded. -/
structure Output where
  width : Value := 1920
  height : Value := 1080
  fps : Value := 30
  format : String := "mp4"
  codec : String := "libx264"
  crf : Value := 23
  preset : String := "medium"
  sampleRate : Value := 44100
  deriving Inhabited

/-- Where an element stands: a number of pixels or a keyword for either axis. -/
structure Position where
  x : Value := "center"
  y : Value := "center"
  deriving Inhabited

/-- How large an element is; `auto` follows from the other dimension. -/
structure Size where
  width : Value := "auto"
  height : Value := "auto"
  deriving Inhabited

/-- The part of a source that is used; without an end it is open. -/
structure Trim where
  start : Value := 0
  stop : Value := .null
  deriving Inhabited

/-- How an element enters and leaves. -/
structure Animation where
  enter : String := "none"
  exit : String := "none"
  enterDuration : Value := 0.5
  exitDuration : Value := 0.5
  deriving Inhabited

/-- What a scene is played before. -/
inductive Background
  | color (value : String)
  | image (src : String)
  | video (src : String) (trim : Trim)
  | gradient (colors : List String) (direction : String)
  /-- Something that is no background. -/
  | other (kind : String) (form : Value)

instance : Inhabited Background := ⟨.color "#000000"⟩

/-- What the kind of a background is called. -/
def Background.kind : Background → String
  | .color _ => "ColorBackground"
  | .image _ => "ImageBackground"
  | .video _ _ => "VideoBackground"
  | .gradient _ _ => "GradientBackground"
  | .other kind _ => kind

/-- How a text is drawn. -/
structure TextStyle where
  font : String := "NotoSansKR"
  size : Value := 48
  color : String := "#FFFFFF"
  outline : Value := 0
  outlineColor : String := "#000000"
  shadow : Value := 0
  bold : Bool := false
  italic : Bool := false
  lineSpacing : Value := 1.2
  align : String := "center"
  deriving Inhabited

/-- A text over a scene. -/
structure TextLayer where
  content : String
  style : TextStyle := {}
  position : Position := {}
  start : Value := 0
  duration : Value := .null
  animation : Animation := {}
  deriving Inhabited

/-- An image over a scene. -/
structure ImageLayer where
  src : String
  position : Position := {}
  size : Size := {}
  opacity : Value := 1
  start : Value := 0
  duration : Value := .null
  animation : Animation := {}
  deriving Inhabited

/-- A clip over a scene. -/
structure VideoLayer where
  src : String
  trim : Trim := {}
  position : Position := {}
  size : Size := {}
  opacity : Value := 1
  mute : Bool := true
  start : Value := 0
  duration : Value := .null
  deriving Inhabited

/-- A filled shape over a scene. -/
structure ShapeLayer where
  shape : String := "rect"
  size : Size := {}
  position : Position := {}
  color : String := "#000000"
  opacity : Value := 0.5
  borderRadius : Value := 0
  start : Value := 0
  duration : Value := .null
  deriving Inhabited

/-- An element over a scene or a thumbnail. -/
inductive Layer
  | text (layer : TextLayer)
  | image (layer : ImageLayer)
  | video (layer : VideoLayer)
  | shape (layer : ShapeLayer)
  /-- Something that is no layer. -/
  | other (kind : String) (form : Value)
  deriving Inhabited

/-- What the kind of a layer is called. -/
def Layer.kind : Layer → String
  | .text _ => "TextLayer"
  | .image _ => "ImageLayer"
  | .video _ => "VideoLayer"
  | .shape _ => "ShapeLayer"
  | .other kind _ => kind

/-- How a scene gives way to the next. -/
structure Transition where
  type : String := "none"
  duration : Value := 0.5
  deriving Inhabited

/-- A scene. -/
structure Scene where
  id : String
  duration : Value
  background : Background := .color "#000000"
  layers : List Layer := []
  transition : Transition := {}
  deriving Inhabited

/-- A sound under the video. -/
structure AudioTrack where
  src : String
  category : String := "bgm"
  start : Value := 0
  duration : Value := .null
  volume : Value := 1
  fadeIn : Value := 0
  fadeOut : Value := 0
  loop : Bool := false
  trim : Trim := {}
  id : Option String := none
  deriving Inhabited

/-- What happens to all sounds together. -/
structure AudioMaster where
  volume : Value := 1
  normalize : Bool := false
  deriving Inhabited

/-- All that is heard. -/
structure Audio where
  tracks : List AudioTrack := []
  master : AudioMaster := {}
  deriving Inhabited

/-- How subtitles are set. -/
structure SubtitleStyle where
  font : String := "../../assets/fonts/NotoSansKR-Regular.ttf"
  size : Value := 32
  color : String := "#FFFFFF"
  outline : Value := 2
  outlineColor : String := "#000000"
  shadow : Value := 1
  position : String := "bottom"
  marginV : Value := 40
  deriving Inhabited

/-- A subtitle. -/
structure Subtitle where
  start : Value
  stop : Value
  text : String
  style : SubtitleStyle := {}
  deriving Inhabited

/-- What a thumbnail is made from. -/
inductive ThumbnailSource
  /-- A frame of the finished video. -/
  | frame (scene : String) (timestamp : Value)
  /-- An image or a color of its own. -/
  | custom (background : Background)

instance : Inhabited ThumbnailSource := ⟨.frame "" 0⟩

/-- The picture that stands for the video. -/
structure Thumbnail where
  enabled : Bool := true
  width : Value := 1280
  height : Value := 720
  source : ThumbnailSource := .frame "" 0
  overlays : List Layer := []
  deriving Inhabited

/-- A video. -/
structure Specification where
  scenes : List Scene
  output : Output := {}
  audio : Audio := {}
  subtitles : List Subtitle := []
  thumbnail : Thumbnail := {}
  version : String := "1.0"
  title : Option String := none
  deriving Inhabited

end Storyboard
