import Storyboard.Spec.Timeline

/-!
# Storyboard.Summary

A specification in a few lines for people to read.
-/

namespace Storyboard

open Number

/-- The short name of a layer's kind. -/
def Layer.shortKind : Layer → Except Fault String
  | .text _ => .ok "text"
  | .image _ => .ok "image"
  | .video _ => .ok "video"
  | .shape _ => .ok "shape"
  | .other kind _ => .error (.inconsistent (.layerUnknown kind))

namespace Specification

/-- A duration in whole minutes and in seconds, rounded half upwards. -/
def minutesSeconds (total : Decimal) : Except Fault (Int × Int) := do
  let minutes ← (← total.quot 60).toInt
  let seconds := roundHalfUp (← ratioOfDecimal (← total.rem 60))
  return (minutes, seconds)

/-- The line of scene `i`. -/
def sceneLine (i : Nat) (scene : Scene) : Except Fault String := do
  let kinds ← scene.layers.mapM Layer.shortKind
  let kinds := if kinds.isEmpty then "none" else String.intercalate ", " kinds
  return "  " ++ i.repr ++ ". [" ++ scene.id ++ "] " ++ (← scene.duration.numberText)
    ++ "s - layers: " ++ kinds

/-- The line of track `i`. -/
def trackLine (i : Nat) (track : AudioTrack) : Except Fault String := do
  return "  " ++ i.repr ++ ". [" ++ track.category ++ "] " ++ track.src ++ " vol="
    ++ (← track.volume.numberText)

/-- The lines of things that are counted from `i` on. -/
def numbered {α : Type} (line : Nat → α → Except Fault String) :
    Nat → List α → Except Fault (List String)
  | _, [] => .ok []
  | i, a :: rest => do
    let text ← line i a
    return text :: (← numbered line (i + 1) rest)

/-- A specification in lines. -/
def summary (spec : Specification) : Except Fault (List String) := do
  let total ← spec.totalDuration
  let (minutes, seconds) ← minutesSeconds total
  let total ← total.written
  let output := spec.output
  let size := (← output.width.plainText) ++ "x" ++ (← output.height.plainText)
  let rate ← output.fps.rateText
  let crf ← output.crf.plainText
  let scenes ← numbered sceneLine 1 spec.scenes
  let tracks ← numbered trackLine 1 spec.audio.tracks
  return ["Video Spec Info",
      String.ofList (List.replicate 40 '-'),
      "Title:       " ++ spec.title.getD "(untitled)",
      "Duration:    " ++ minutes.repr ++ "m " ++ seconds.repr ++ "s (" ++ total.shortText ++ "s)",
      "Resolution:  " ++ size,
      "FPS:         " ++ rate,
      "Codec:       " ++ output.codec ++ " (CRF " ++ crf ++ ", " ++ output.preset ++ ")",
      "Scenes:      " ++ spec.scenes.length.repr]
    ++ scenes
    ++ ["Audio:       " ++ spec.audio.tracks.length.repr ++ " track(s)"]
    ++ tracks
    ++ ["Subtitles:   " ++ spec.subtitles.length.repr ++ " entry/entries",
      "Thumbnail:   " ++ if spec.thumbnail.enabled then "enabled" else "disabled"]

end Specification

end Storyboard
