import Storyboard.Compile.Layout

/-!
# Storyboard.Compile.Paths

The paths that a specification names, in the order in which its parts are read.  Media
count wherever they stand, fonts only where a text is drawn with a font from a file.
Where no folder is given, only paths that stand for themselves lead anywhere.
-/

namespace Storyboard

/-- The paths in a background. -/
def Background.paths : Background → List String
  | .image src => [src]
  | .video src _ => [src]
  | _ => []

/-- The paths in a text layer. -/
def TextLayer.paths (layer : TextLayer) : List String :=
  if isFontFile layer.style.font then [layer.style.font] else []

/-- The paths in a layer of a scene. -/
def Layer.paths : Layer → List String
  | .text l => l.paths
  | .image l => [l.src]
  | .video l => [l.src]
  | _ => []

/-- The paths in a scene. -/
def Scene.paths (scene : Scene) : List String :=
  scene.background.paths ++ scene.layers.flatMap Layer.paths

/-- The paths that are read when a specification is compiled. -/
def Specification.paths (spec : Specification) : List String :=
  spec.scenes.flatMap Scene.paths ++ spec.audio.tracks.map AudioTrack.src

/-- The paths in what is drawn over a thumbnail: there media are left out. -/
def Layer.drawnPaths : Layer → List String
  | .text l => l.paths
  | _ => []

/-- The paths in the source of a thumbnail. -/
def ThumbnailSource.paths : ThumbnailSource → List String
  | .frame _ _ => []
  | .custom background => background.paths

/-- The paths that are read for a thumbnail. -/
def Thumbnail.paths (t : Thumbnail) : List String :=
  t.source.paths ++ t.overlays.flatMap Layer.drawnPaths

/-- Whether a path leads anywhere: it has to stand for itself unless there is a folder
that it is meant from. -/
def Path.isReachable (base : Option String) (p : String) : Bool := base.isSome || isAbsolute p

/-- Refuses paths of which one leads nowhere. -/
def Path.checkAll (base : Option String) (paths : List String) : Except Fault Unit :=
  if paths.all (isReachable base) then .ok () else .error .textMissing

end Storyboard
