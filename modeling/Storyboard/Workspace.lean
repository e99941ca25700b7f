import Storyboard.Color
import Storyboard.Fault
import Storyboard.Path
import Storyboard.Text.Surrogate

/-!
# Storyboard.Workspace

What a command can touch: the files below and around the folder it is run in, and the
lines it prints.  A file is kept under the parts of its path from the root.  A path is
walked part by part, so that `drafts/../meta.json` leads nowhere unless there is a folder
`drafts`.  Files and lines are in UTF-8, which has no code for half of a surrogate pair: a
line with one in it is not printed, and a path names no file unless its halves are bytes.

* `get?_put_self`, `get?_put_of_ne` — writing a file changes that file alone.
-/

namespace Storyboard

/-- What a file holds. -/
inductive Content
  /-- A text as it is spelled. -/
  | text (s : String)
  /-- Any bytes, and a number of zero bytes after them. -/
  | raw (bytes : ByteArray) (zeros : Nat)
  /-- A picture in one color. -/
  | picture (width height : Nat) (color : Color.RGB)

namespace Content

/-- The size in bytes, as far as it is known from what the file holds. -/
def size : Content → Nat
  | .text s => (Text.plain s).utf8ByteSize
  | .raw bytes zeros => bytes.size + zeros
  | .picture _ _ _ => 0

/-- Line ends of any kind as line feeds. -/
def unixLines : List Char → List Char
  | '\r' :: '\n' :: cs => '\n' :: unixLines cs
  | '\r' :: cs => '\n' :: unixLines cs
  | c :: cs => c :: unixLines cs
  | [] => []

/-- The characters of a file of text. -/
def chars : Content → Except Fault (List Char)
  | .text s => .ok (unixLines s.toList)
  | .raw bytes zeros =>
    match String.fromUTF8? bytes with
    | some s => .ok (unixLines (s.toList.flatMap Text.spelled) ++ List.replicate zeros '\x00')
    | none => .error .utf8Malformed
  | .picture _ _ _ => .error .utf8Malformed

end Content

/-- A path from the root, by its parts. -/
abbrev Parts := List String

/-- The files, the folder that relative paths are meant from, the folders that were made,
and what was printed.  A quiet workspace prints no notes. -/
structure Workspace where
  folder : Parts
  files : List (Parts × Content) := []
  folders : List Parts := []
  printed : List String := []
  quiet : Bool := false
  /-- The longest side that a picture can have; none if a side can be of any length. -/
  longestSide : Option Nat := some 0x7FFFFFFF

namespace Workspace

/-- The file at a place. -/
def get? (w : Workspace) (place : Parts) : Option Content := w.files.lookup place

/-- A list of files with one more, or with another content for one. -/
def putFile (place : Parts) (content : Content) :
    List (Parts × Content) → List (Parts × Content)
  | [] => [(place, content)]
  | (p, c) :: rest =>
    if p = place then (p, content) :: rest else (p, c) :: putFile place content rest

/-- The workspace with a file at a place. -/
def put (w : Workspace) (place : Parts) (content : Content) : Workspace :=
  { w with files := putFile place content w.files }

theorem lookup_putFile_self (place : Parts) (content : Content) (files : List (Parts × Content)) :
    (putFile place content files).lookup place = some content := by
  induction files with
  | nil => simp [putFile]
  | cons f rest ih =>
    obtain ⟨p, c⟩ := f
    by_cases h : p = place
    · simp [putFile, h]
    · have h' : (place == p) = false := by simpa using fun e => h e.symm
      simp [putFile, h, List.lookup_cons, h', ih]

theorem lookup_putFile_of_ne {place other : Parts} (h : other ≠ place) (content : Content)
    (files : List (Parts × Content)) :
    (putFile place content files).lookup other = files.lookup other := by
  induction files with
  | nil => simp [putFile, h]
  | cons f rest ih =>
    obtain ⟨p, c⟩ := f
    by_cases hp : p = place
    · subst hp
      have h' : (other == p) = false := by simpa using h
      simp [putFile, List.lookup_cons, h']
    · simp [putFile, hp, List.lookup_cons, ih]

/-- The file that was written is there. -/
theorem get?_put_self (w : Workspace) (place : Parts) (content : Content) :
    (w.put place content).get? place = some content :=
  lookup_putFile_self place content w.files

/-- No other file is touched. -/
theorem get?_put_of_ne (w : Workspace) {place other : Parts} (h : other ≠ place)
    (content : Content) : (w.put place content).get? other = w.get? other :=
  lookup_putFile_of_ne h content w.files

/-- Whether a place is a folder: it has a file or a made folder below it, or the
workspace itself. -/
def isFolder (w : Workspace) (place : Parts) : Bool :=
  place.isPrefixOf w.folder || w.folders.any place.isPrefixOf ||
    w.files.any fun f => place.isPrefixOf f.1 && place != f.1

/-- One more part of a path that goes on after it. -/
def enter (w : Workspace) (place : Parts) (part : String) : Except Fault Parts :=
  if part = "" ∨ part = "." then .ok place
  else if part = ".." then .ok place.dropLast
  else if w.isFolder (place ++ [part]) then .ok (place ++ [part])
  else if (w.get? (place ++ [part])).isSome then .error .folderIsFile
  else .error .fileMissing

/-- Where a path is walked from. -/
def origin (w : Workspace) (path : String) : Parts := if Path.isAbsolute path then [] else w.folder

/-- Whether a path can be the name of a file at all. -/
def checkName (path : String) : Except Fault Unit :=
  if path = "" then .error .fileMissing
  else if path.toList.any fun c => Text.isHalf c && !Text.isByte c then .error .surrogateUnpaired
  else if path.toList.contains '\x00' then .error .valueUnsuited
  else .ok ()

/-- The place of a path.  Only its last part need not be there. -/
def locate (w : Workspace) (path : String) : Except Fault Parts := do
  checkName path
  let parts := Path.parts path
  let place ← parts.dropLast.foldlM w.enter (w.origin path)
  match parts.getLast? with
  | some last => return Path.step place.reverse last |>.reverse
  | none => return place

/-- Whether a picture can have two sides of these lengths. -/
def holds (w : Workspace) (width height : Nat) : Bool :=
  w.longestSide.all fun longest => decide (width ≤ longest ∧ height ≤ longest)

/-- Whether a path leads to a file. -/
def isFile (w : Workspace) (path : String) : Bool :=
  match w.locate path with
  | .ok place => (w.get? place).isSome
  | .error _ => false

end Workspace

/-- Work on a workspace that may fail; what was done before a failure stays done. -/
abbrev Action := ExceptT Fault (StateM Workspace)

namespace Action

/-- Prints a line, unless half of a surrogate pair is in it. -/
def say (line : String) : Action Unit :=
  if Text.hasHalf line then throw .surrogateUnpaired
  else modify fun w => { w with printed := w.printed ++ [line] }

/-- Prints a note, unless the workspace is quiet. -/
def note (line : String) : Action Unit := do
  unless (← get).quiet do say line

/-- The file that a path leads to. -/
def content (path : String) : Action Content := do
  let w ← get
  let place ← w.locate path
  match w.get? place with
  | some content => return content
  | none => throw (if w.isFolder place then .fileIsFolder else .fileMissing)

/-- Writes a file, whose folder has to be there. -/
def write (path : String) (content : Content) : Action Unit := do
  let w ← get
  let place ← w.locate path
  if w.isFolder place then throw .fileIsFolder
  set (w.put place content)

/-- Goes into a folder, which is made if it is not there. -/
def makeFolder (place : Parts) (part : String) : Action Parts := do
  let w ← get
  match w.enter place part with
  | .ok place => return place
  | .error .fileMissing =>
    Workspace.checkName part
    set { w with folders := w.folders ++ [place ++ [part]] }
    return place ++ [part]
  | .error fault => throw fault

/-- Makes a folder and the folders above it. -/
def makeFolders (path : String) : Action Unit := do
  discard <| (Path.parts path).foldlM makeFolder ((← get).origin path)

end Action

end Storyboard
