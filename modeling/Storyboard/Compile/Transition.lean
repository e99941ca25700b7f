import Storyboard.Graph.Basic
import Storyboard.Spec.Basic

/-!
# Storyboard.Compile.Transition

The scenes joined one after another.  Each joint lays the next scene over the end of what
was joined before, and starts as long before that end as the transition lasts, but never
before zero.  The running length is kept apart from the starts that are written: it also
counts where a start was held at zero.
-/

namespace Storyboard

namespace Transition

/-- The transitions that have an effect of their own. -/
def effects : List (String × String) :=
  [("none", "fade"), ("crossfade", "fade"), ("wipe-left", "wipeleft"),
   ("wipe-right", "wiperight"), ("wipe-up", "wipeup"), ("wipe-down", "wipedown"),
   ("fade-black", "fadeblack")]

/-- The effect of a transition; a transition that is not known fades. -/
def effect (type : String) : String := (effects.lookup type).getD "fade"

/-- The filter of a joint. -/
def filter (type : String) (duration offset : Decimal) : Filter :=
  .call "xfade"
    [.named "transition" (effect type), .time "duration" duration, .time "offset" offset]

/-- The joints from number `k` on: `joined` is what came before, `last` its last scene,
`running` its length. -/
def joints (last : Scene) (joined : Pad) (running : Decimal) :
    Int → List (Scene × Pad) → Except Fault (List Node × Pad)
  | _, [] => .ok ([], joined)
  | k, (scene, pad) :: rest => do
    let duration ← last.transition.duration.toDecimal
    let left ← running.sub duration
    let offset ← Decimal.zero.greater left
    let joint := filter last.transition.type (← duration.written) (← offset.written)
    let node : Node := ⟨[joined, pad], [joint], .transition k⟩
    let longer ← running.add (← scene.duration.toDecimal)
    let (nodes, out) ← joints scene (.transition k) (← longer.sub duration) (k + 1) rest
    return (node :: nodes, out)

/-- The statements that join scenes, given with the pads they leave by, and the pad of
the whole. -/
def chain (scenes : List Scene) (pads : List Pad) : Except Fault (List Node × Pad) :=
  if pads.length ≠ scenes.length then .error (.inconsistent .padCount)
  else
    match scenes.zip pads with
    | [] => .error (.inconsistent .noScene)
    | [(_, pad)] => .ok ([], pad)
    | (scene, pad) :: rest => do joints scene pad (← scene.duration.toDecimal) 1 rest

end Transition

end Storyboard
