import Storyboard.Command
import Storyboard.Compile
import Storyboard.Compile.Paths
import Storyboard.Graph.Plan
import Storyboard.Metadata
import Storyboard.Program.Arguments
import Storyboard.Spec.File
import Storyboard.Summary
import Storyboard.Thumbnail

/-!
# Storyboard.Program

What the program does for a command line: it loads a specification and then prints a
summary of it, or only says that it is valid, or compiles it and prints the plan, the
commands or the graph and writes the record.
-/

namespace Storyboard.Program

/-- Prints lines one after another. -/
def sayAll : List String → Action Unit
  | [] => return
  | line :: rest => do
    Action.say line
    sayAll rest

/-- The folder that media paths are meant from: the one that was asked for, else that of
the specification; none if nothing was asked for in its place. -/
def baseFolder (a : Arguments) (folder : Parts) (path : String) : Option String :=
  match a.baseFolder with
  | some (.text base) => some base
  | some .nothing => none
  | none => some (Path.folderName (Path.absolute ("/" ++ String.intercalate "/" folder) path))

/-- Compiles a specification and prints or writes what was asked for, the record as made
at the time `now`. -/
def produce (a : Arguments) (spec : Specification) (folder : Option String) (now : String) :
    Action Unit := do
  let base := folder.getD ""
  let graph ← spec.compile base a.anchor
  Path.checkAll folder spec.paths
  if a.plan then Action.say graph.planText
  if let some video := a.video then
    Action.say (Shell.commandLine (← graph.renderCommand spec.output video))
  if let some thumbnail := a.thumbnail then
    unless spec.thumbnail.enabled do throw (.refused .thumbnailDisabled)
    let mode := if a.sceneTime then "scene" else "absolute"
    let commands ← spec.planThumbnail a.video (← thumbnail.required) base mode
    Path.checkAll folder spec.thumbnail.paths
    sayAll (commands.map Shell.commandLine)
  if let some record := a.record then
    let thumbnail := a.thumbnail.map Given.textOrEmpty
    discard <| spec.writeMetadata (← record.required) a.video thumbnail now
  unless a.plan || a.video.isSome || a.thumbnail.isSome do Action.say graph.text

/-- Does what arguments ask for. -/
def perform (a : Arguments) (now : String) : Action Unit := do
  modify fun w => { w with quiet := a.quiet }
  let path ← liftM (a.spec.mapM Given.required)
  let spec ← Specification.load path
  if a.summary then
    sayAll (← spec.summary)
  else if a.check then
    Action.note ("dry run: validation complete, " ++ (← spec.totalDuration).text ++ "s total")
  else
    produce a spec (baseFolder a (← get).folder (path.getD "")) now

/-- Runs a command line at the time `now`; the result is the exit status. -/
def run (now : String) (words : List String) : Action Nat := do
  match Arguments.read words with
  | .error stop => return stop.status
  | .ok a =>
    perform a now
    return 0

end Storyboard.Program
