import Storyboard.Json.Reader
import Storyboard.Json.Writer
import Storyboard.Spec.Timeline
import Storyboard.Text.Surrogate
import Storyboard.Workspace

/-!
# Storyboard.Metadata

The record that is kept beside a rendered video.  What people have written into an
earlier record — title, description and tags — is taken over; the rest follows from the
specification and the names of the files.
-/

namespace Storyboard

namespace Specification

/-- The names of the files that belong to the video. -/
def fileNames (video thumbnail : Option String) : Value :=
  let name (path : String) : Value := .text (Path.baseName path)
  .map ((.text "video", video.elim (.text "") name) ::
    match thumbnail with
    | none => []
    | some "" => []
    | some path => [(.text "thumbnail", name path)])

/-- The title of the record: that of the earlier one, else that of the specification. -/
def recordTitle (spec : Specification) (existing : Entries) : Value :=
  match existing.get "title" with
  | .null => .text (spec.title.getD "Untitled")
  | title => title

/-- The record of a video, after an earlier one, made at a given time. -/
def metadata (spec : Specification) (existing : Entries) (video thumbnail : Option String)
    (createdAt : Value) : Except Fault Value := do
  let duration ← (Value.decimal (← spec.totalDuration)).recordNumber
  let size := (← spec.output.width.plainText) ++ "x" ++ (← spec.output.height.plainText)
  return .map
    [(.text "title", spec.recordTitle existing),
     (.text "description", existing.getD "description" (.text "")),
     (.text "tags", existing.getD "tags" (.list [])),
     (.text "duration", duration),
     (.text "resolution", .text size),
     (.text "createdAt", createdAt),
     (.text "files", fileNames video thumbnail)]

/-- The earlier record at a path; none is an empty one. -/
def earlierRecord (path : String) : Action Entries := do
  if (← get).isFile path then
    match ← Json.read (← (← Action.content path).chars) with
    | .map entries => return entries
    | _ => throw (.refused (.metaNotObject path))
  else return []

/-- Writes the record of a video to a path, made at a given time.  A record that holds a
text which no file can hold leaves an empty file behind. -/
def writeMetadata (spec : Specification) (path : String) (video thumbnail : Option String)
    (now : String) : Action Value := do
  let existing ← earlierRecord path
  let record ← spec.metadata existing video thumbnail (.text now)
  let folder := Path.folderName path
  Action.makeFolders (if folder = "" then "." else folder)
  let text ← Json.text record
  if Text.hasHalf text then
    Action.write path (.text "")
    throw .surrogateUnpaired
  Action.write path (.text (text ++ "\n"))
  Action.note ("metadata written to " ++ path)
  return record

end Specification

end Storyboard
