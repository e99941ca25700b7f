import Storyboard.Spec.Basic
import Storyboard.Value.Time

/-!
# Storyboard.Spec.Timeline

When scenes are on.  A transition plays the end of a scene and the start of the next at
once, so each scene but the first starts earlier by the duration of the transition
before it.  The total duration does not know of transitions.
-/

namespace Storyboard

namespace Scene

/-- The sum of the durations of scenes, added to what came before. -/
def totalFrom (before : Decimal) : List Scene → Except Fault Decimal
  | [] => .ok before
  | s :: rest => do totalFrom (← before.add (← s.duration.toDecimalByText)) rest

/-- The start of the first scene with an id, where the first of the given scenes starts
at `start`. -/
def startFrom (start : Decimal) (id : String) : List Scene → Except Fault Decimal
  | [] => .error (.refused (.sceneNotFound id))
  | s :: rest =>
    if s.id = id then .ok start
    else do
      let stop ← start.add (← s.duration.toDecimalByText)
      if rest.isEmpty then startFrom stop id rest
      else startFrom (← stop.sub (← s.transition.duration.toDecimalByText)) id rest

end Scene

namespace Specification

/-- The sum of the durations of all scenes. -/
def totalDuration (spec : Specification) : Except Fault Decimal :=
  Scene.totalFrom .zero spec.scenes

/-- The first scene with an id. -/
def scene? (spec : Specification) (id : String) : Option Scene :=
  spec.scenes.find? fun s => s.id == id

/-- When the first scene with an id starts in the finished video. -/
def sceneStart (spec : Specification) (id : String) : Except Fault Decimal :=
  Scene.startFrom .zero id spec.scenes

end Specification

end Storyboard
