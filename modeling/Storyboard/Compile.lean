import Storyboard.Compile.Scene
import Storyboard.Compile.Sound
import Storyboard.Compile.Transition

/-!
# Storyboard.Compile

A specification as a graph.  One walk over the scenes and then the tracks registers every
file and makes the statements that read it; between the two the scenes are joined.
-/

namespace Storyboard

namespace Specification

/-- The statements of scenes from number `i` on, and the pad that each leaves by. -/
def compileScenes (output : Output) (base : String) :
    Int → List Scene → Build (List Node × List Pad)
  | _, [] => return ([], [])
  | i, scene :: rest => do
    let (nodes, pad) ← scene.compile output base i
    let (more, pads) ← compileScenes output base (i + 1) rest
    return (nodes ++ more, pad :: pads)

/-- All statements, and the pads of picture and sound. -/
def build (spec : Specification) (base anchor : String) : Build (List Node × Pad × Pad) := do
  let (sceneNodes, pads) ← compileScenes spec.output base 0 spec.scenes
  let (joints, videoPad) ← Transition.chain spec.scenes pads
  let anchor ← Anchor.ofName anchor
  let (soundNodes, audioPad) ← AudioTrack.mix anchor spec.output.sampleRate spec.audio.tracks
  return (sceneNodes ++ joints ++ soundNodes, videoPad, audioPad)

/-- The graph of a specification, with relative paths meant from `base` and fade-outs
reckoned from `anchor`, which is `start` or `end`. -/
def compile (spec : Specification) (base anchor : String) : Except Fault Graph := do
  if spec.scenes.isEmpty then throw (.inconsistent .noScene)
  let (result, inputs) := (spec.build base anchor).run.run ⟨base, []⟩
  let (nodes, videoPad, audioPad) ← result
  return ⟨inputs.paths, nodes, videoPad, audioPad⟩

/-- The graph of a specification that may be absent. -/
def compile? (spec : Option Specification) (base anchor : String) : Except Fault Graph :=
  match spec with
  | some spec => spec.compile base anchor
  | none => .error (.inconsistent .noScene)

end Specification

end Storyboard
