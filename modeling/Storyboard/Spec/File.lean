import Storyboard.Spec.Reader
import Storyboard.Workspace
import Storyboard.Yaml

/-!
# Storyboard.Spec.File

A specification from a file.  The file is looked at before it is read, so that a file
that is too large is refused by its size alone.
-/

namespace Storyboard

namespace Specification

/-- The number of bytes up to which a file is read. -/
def sizeLimit : Nat := 10000000

/-- The value that a file holds. -/
def document (path : String) : Action Value := do
  let content ← Action.content path
  if content.size > sizeLimit then throw (.refused .specTooLarge)
  Yaml.read (← content.chars)

/-- The specification in a file. -/
def load (path : Option String) : Action Specification := do
  match path with
  | none => throw (.refused .noSpecFile)
  | some path =>
    let spec ← ofValue (← document path)
    Action.note ("loaded " ++ spec.scenes.length.repr ++ " scene(s), "
      ++ spec.audio.tracks.length.repr ++ " audio track(s) from " ++ path)
    return spec

end Specification

end Storyboard
