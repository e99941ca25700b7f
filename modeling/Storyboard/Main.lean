import Storyboard.Color.Picture
import Storyboard.Program

/-!
# Storyboard.Main

The program at the command line.  The files and folders that the arguments name are looked
up, the command line is run on them, and what became of them is written back.
-/

namespace Storyboard.Program

/-- How the program is called. -/
def usage : String :=
  "usage: storyboard -y SPEC [-b FOLDER] [-o VIDEO] [-t THUMBNAIL] [-r] [-m RECORD] [-i] [-n]\n" ++
  "                  [-p] [-f start|end] [-q]"

/-- A path from the root, given by its parts. -/
def pathOf (place : Parts) : String := Text.plain ("/" ++ String.intercalate "/" place)

/-- The paths that arguments name. -/
def Arguments.paths (a : Arguments) : List String :=
  (a.spec.toList ++ a.record.toList ++ a.thumbnail.toList).map Given.textOrEmpty

/-- A workspace with the folders on the way to a place, and the file there. -/
def lookUp (w : Workspace) (place : Parts) : IO Workspace := do
  let here ← IO.currentDir
  let mut w := w
  for k in [0:place.length + 1] do
    let path := here / pathOf (place.take k)
    if ← path.isDir then
      w := { w with folders := w.folders ++ [place.take k] }
    else if k = place.length then
      if ← path.pathExists then
        w := w.put place (.raw (← IO.FS.readBinFile path) 0)
  return w

/-- The bytes of a file. -/
def bytesOf : Content → ByteArray
  | .text s => (Text.plain s).toUTF8
  | .raw bytes zeros => ⟨bytes.data ++ Array.replicate zeros 0⟩
  | .picture width height color => Color.Picture.bytes width height color

/-- Writes back what is new in a workspace. -/
def writeBack (before after : Workspace) : IO Unit := do
  for folder in after.folders.drop before.folders.length do
    IO.FS.createDirAll (pathOf folder)
  for (place, content) in after.files do
    let bytes := bytesOf content
    if ((before.get? place).map bytesOf).map (·.data) ≠ some bytes.data then
      IO.FS.writeBinFile (pathOf place) bytes

/-- The time that a new file gets. -/
def now : IO String := do
  let (_, path) ← IO.FS.createTempFile
  let time := (← path.metadata).modified
  IO.FS.removeFile path
  return (Stamp.ofSeconds time.sec.toNat (time.nsec.toNat / 1000)).isoText

/-- What a fault is called where it has no text of its own. -/
def describe (f : Fault) : String :=
  f.message?.getD (reprStr f)

end Storyboard.Program

open Storyboard Program in
/-- Runs the command line. -/
def main (words : List String) : IO UInt32 := do
  let words := words.map Text.spell
  match Arguments.read words with
  | .error stop =>
    (if stop = .help then IO.println usage else IO.eprintln usage)
    return UInt32.ofNat stop.status
  | .ok a =>
    let here := Text.spell (← IO.currentDir).toString
    let mut before : Workspace := { folder := Path.normalParts here }
    for path in a.paths do
      before ← lookUp before (Path.normalParts (Path.join here path))
    let (outcome, after) := (run (← now) words).run.run before
    for line in after.printed do
      IO.println (Text.plain line)
    writeBack before after
    match outcome with
    | .ok status => return UInt32.ofNat status
    | .error f =>
      IO.eprintln (Text.plain (describe f))
      return 1
