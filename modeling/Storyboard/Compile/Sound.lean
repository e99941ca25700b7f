import Storyboard.Compile.Inputs
import Storyboard.Graph.Basic
import Storyboard.Spec.Basic

/-!
# Storyboard.Compile.Sound

The audio tracks.  A track is a window of its source, made louder or softer, faded in
and out, and played from some time on; a filter is written only where it has an effect.
One track is heard as it is, several are mixed, and where there is none a second of
silence takes their place.
-/

namespace Storyboard

/-- What the end of a fade-out is reckoned from. -/
inductive Anchor
  | start
  | stop
  deriving DecidableEq, Repr

/-- The anchor of a name. -/
def Anchor.ofName (name : String) : Except Fault Anchor :=
  match name with
  | "start" => .ok .start
  | "end" => .ok .stop
  | _ => .error (.refused .anchorUnknown)

namespace AudioTrack

open Number

/-- The window of the source that is heard; without an end it is open. -/
def window (track : AudioTrack) : Except Fault (Decimal × Option Decimal) := do
  let start ← track.trim.start.toDecimal
  match track.trim.stop, track.duration with
  | .null, .null => return (start, none)
  | .null, duration => return (start, some (← start.add (← duration.toDecimal)))
  | stop, _ => return (start, some (← stop.toDecimal))

/-- The filters that keep the window. -/
def windowFilters (start : Decimal) (stop? : Option Decimal) : Except Fault (List Filter) := do
  let later ← start.isPositive
  if later || stop?.isSome then
    let start ← start.written
    let stop? ← stop?.mapM Decimal.written
    return [.call "atrim" (.time "start" start :: stop?.elim [] fun stop => [.time "end" stop]),
      .call "asetpts" [.plain "PTS-STARTPTS"]]
  else return []

/-- When a fade-out starts: at zero, or so that it ends with the window. -/
def fadeOutStart (anchor : Anchor) (fade start : Decimal) (stop? : Option Decimal) :
    Except Fault Decimal :=
  match anchor, stop? with
  | .stop, some stop => do Decimal.zero.greater (← (← stop.sub start).sub fade)
  | _, _ => .ok .zero

/-- The filter that changes the volume. -/
def volumeFilters (volume : Decimal) : Except Fault (List Filter) := do
  if ← volume.same (.ofInt 1) then return []
  else return [.call "volume" [.plain (← volume.written).shortText]]

/-- The filters that fade a track in. -/
def fadeInFilters (fade : Decimal) : Except Fault (List Filter) := do
  if ← fade.isPositive then
    return [.call "afade" [.named "t" "in", .time "d" (← fade.written)]]
  else return []

/-- The filters that fade a track out. -/
def fadeOutFilters (anchor : Anchor) (fade start : Decimal) (stop? : Option Decimal) :
    Except Fault (List Filter) := do
  if ← fade.isPositive then
    let first ← fadeOutStart anchor fade start stop?
    return [.call "afade" [.named "t" "out", .time "d" (← fade.written),
      .time "st" (← first.written)]]
  else return []

/-- The filters that let a track start later. -/
def delayFilters (start : Decimal) : Except Fault (List Filter) := do
  if ← start.isPositive then
    let ms ← start.milliseconds
    return [.call "adelay" [.named "delays" ms.repr, .named "all" "1"]]
  else return []

/-- The filter of a track that is heard as it is. -/
def unchanged : Filter := .call "anull" []

/-- The filters of a track, at least one. -/
def filters (anchor : Anchor) (track : AudioTrack) : Except Fault (List Filter) := do
  let (start, stop?) ← track.window
  let kept ← windowFilters start stop?
  let louder ← volumeFilters (← track.volume.toDecimal)
  let fadedIn ← fadeInFilters (← track.fadeIn.toDecimal)
  let fadedOut ← fadeOutFilters anchor (← track.fadeOut.toDecimal) start stop?
  let delayed ← delayFilters (← track.start.toDecimal)
  let filters := kept ++ louder ++ fadedIn ++ fadedOut ++ delayed
  return if filters.isEmpty then [unchanged] else filters

/-- The statement of track `t`. -/
def compile (anchor : Anchor) (track : AudioTrack) (t : Int) : Build Node := do
  let k ← Inputs.register track.src
  return ⟨[.input k .audio], ← filters anchor track, .track t⟩

/-- The statements of tracks from number `t` on. -/
def compileAll (anchor : Anchor) : Int → List AudioTrack → Build (List Node)
  | _, [] => return []
  | t, track :: rest => do
    let node ← compile anchor track t
    return node :: (← compileAll anchor (t + 1) rest)

/-- How many seconds the silence lasts that takes the place of tracks. -/
def silenceSeconds : String := "1"

/-- The statement that makes silence. -/
def silence (sampleRate : Value) : Except Fault Node := do
  return ⟨[], [.call "anullsrc" [← FilterOption.of "r" sampleRate, .named "cl" "stereo"],
    .call "atrim" [.named "duration" silenceSeconds]], .silence⟩

/-- All tracks as statements, and the pad they leave by. -/
def mix (anchor : Anchor) (sampleRate : Value) (tracks : List AudioTrack) :
    Build (List Node × Pad) := do
  let nodes ← compileAll anchor 0 tracks
  match nodes with
  | [] => return ([← silence sampleRate], .silence)
  | [node] => return (nodes, node.output)
  | _ =>
    let pads := nodes.map Node.output
    let mixed : Node :=
      ⟨pads, [.call "amix" [.named "inputs" pads.length.repr, .named "dropout_transition" "0"]],
        .mix⟩
    return (nodes ++ [mixed], .mix)

end AudioTrack

end Storyboard
