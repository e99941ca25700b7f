import Storyboard.Fault
import Storyboard.Path

/-!
# Storyboard.Compile.Inputs

The list of input files of a graph.  A file is registered at the moment at which the
statement that reads it is made, so its index in the statement and its place in the list
are one number; a file that is used twice is registered twice.  What was registered
stays, also when the step that did it fails afterwards.

* `register_paths` — a registration appends exactly the resolved path.
-/

namespace Storyboard

/-- The input files registered so far, and the folder that relative paths are meant
from. -/
structure Inputs where
  base : String
  paths : List String := []
  deriving DecidableEq, Repr

/-- A step of compilation: it may register files, and may fail. -/
abbrev Build := ExceptT Fault (StateM Inputs)

namespace Inputs

/-- Registers a source; the result is its index. -/
def register (src : String) : Build Nat := do
  if src = "" then throw (.inconsistent .sourceMissing)
  let inputs ← get
  set { inputs with paths := inputs.paths ++ [Path.resolve inputs.base src] }
  return inputs.paths.length

/-- A source without a path is refused, and nothing is registered. -/
theorem register_empty (inputs : Inputs) :
    (register "").run.run inputs = (.error (.inconsistent .sourceMissing), inputs) := rfl

/-- A registration gives the next index and appends the resolved path. -/
theorem register_paths {src : String} (h : src ≠ "") (inputs : Inputs) :
    (register src).run.run inputs =
      (.ok inputs.paths.length,
        { inputs with paths := inputs.paths ++ [Path.resolve inputs.base src] }) := by
  simp only [register, h, if_false]
  rfl

end Inputs

end Storyboard
