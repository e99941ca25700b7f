import Storyboard.Graph.Basic
import Storyboard.Shell
import Storyboard.Spec.Basic

/-!
# Storyboard.Command

Command lines for the engine that renders a graph.  They are only put together here; the
`k`-th input file of the graph is the `k`-th file that the command line names, which is
what the indices in the graph mean.
-/

namespace Storyboard

/-- The start of every command line: the program, which may overwrite its output. -/
def Command.start : List String := ["ffmpeg", "-y"]

/-- A size as one argument. -/
def Command.sizeText (width height : Value) : Except Fault String := do
  return (← width.plainText) ++ "x" ++ (← height.plainText)

/-- The container formats whose index is moved to the front. -/
def Output.indexedFormats : List String := ["mp4", "mov"]

/-- The arguments that render a graph into a file. -/
def Graph.renderCommand (g : Graph) (output : Output) (outfile : String) :
    Except Fault (List String) := do
  let crf ← output.crf.plainText
  let sampleRate ← output.sampleRate.plainText
  let rate ← output.fps.rateText
  let size ← Command.sizeText output.width output.height
  return Command.start
    ++ g.inputs.flatMap (fun path => ["-i", path])
    ++ ["-filter_complex", g.text, "-map", Node.padText g.videoPad, "-map", Node.padText g.audioPad,
        "-c:v", output.codec, "-preset", output.preset, "-crf", crf, "-c:a", "aac", "-b:a", "192k",
        "-ar", sampleRate, "-r", rate, "-s", size, "-pix_fmt", "yuv420p"]
    ++ (if output.format ∈ Output.indexedFormats then ["-movflags", "+faststart"] else [])
    ++ [outfile]

/-- The arguments that take one frame out of a video. -/
def Command.frame (video : String) (timestamp : Value) (outfile : String) (width height : Value) :
    Except Fault (List String) := do
  let time ← timestamp.numberText
  let size ← sizeText width height
  return start ++ ["-ss", time, "-i", video, "-vframes", "1", "-s", size, outfile]

end Storyboard
