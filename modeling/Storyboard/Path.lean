/-!
# Storyboard.Path

Paths as texts, with `/` between their parts.  A path that starts with `/` stands for
itself; every other path is meant from some folder, and `resolve` puts that folder in
front.

* `folder_append_name` — a path is its folder part and its last part.
-/

namespace Storyboard.Path

/-- Whether a path stands for itself. -/
def isAbsolute (p : String) : Bool := p.toList.head? == some '/'

/-- A path below a folder; one slash is put between them where none stands. -/
def join (folder p : String) : String :=
  if isAbsolute p then p
  else if folder = "" ∨ folder.toList.getLast? = some '/' then folder ++ p
  else folder ++ "/" ++ p

/-- A media path, meant from a base folder. -/
def resolve (base p : String) : String := if isAbsolute p then p else join base p

/-- The characters up to and with the last slash. -/
def folderPart (cs : List Char) : List Char := (cs.reverse.dropWhile (· ≠ '/')).reverse

/-- The characters after the last slash. -/
def namePart (cs : List Char) : List Char := (cs.reverse.takeWhile (· ≠ '/')).reverse

/-- A path is its folder part and its last part. -/
theorem folder_append_name (cs : List Char) : folderPart cs ++ namePart cs = cs := by
  rw [folderPart, namePart, ← List.reverse_append, List.takeWhile_append_dropWhile,
    List.reverse_reverse]

/-- The last part of a path. -/
def baseName (p : String) : String := String.ofList (namePart p.toList)

/-- The folder of a path, without slashes at its end unless it is nothing but slashes. -/
def folderName (p : String) : String :=
  let head := folderPart p.toList
  if head.all (· = '/') then String.ofList head
  else String.ofList (head.reverse.dropWhile (· = '/')).reverse

/-- A path without its extension.  Dots at the start of the last part begin no
extension. -/
def stem (p : String) : String :=
  let name := namePart p.toList
  let dots := name.takeWhile (· = '.')
  let rest := name.dropWhile (· = '.')
  if rest.contains '.' then
    let kept := (rest.reverse.dropWhile (· ≠ '.')).reverse.dropLast
    String.ofList (folderPart p.toList ++ dots ++ kept)
  else p

/-- The extension of a path, with its dot. -/
def extension (p : String) : String :=
  String.ofList (p.toList.drop (stem p).toList.length)

/-- The parts of a path between its slashes. -/
def parts (p : String) : List String := (p.toList.splitOn '/').map String.ofList

/-- One more part of an absolute path that is kept in reverse: the empty part and `.`
change nothing, `..` leads to the folder above, of which the root has none. -/
def step (above : List String) (part : String) : List String :=
  if part = "" ∨ part = "." then above
  else if part = ".." then above.tail
  else part :: above

/-- The parts of an absolute path, without `.` and `..`. -/
def normalParts (p : String) : List String := ((parts p).foldl step []).reverse

/-- A path from the root, meant from a folder that is given from the root.  Two slashes
at the start, and no more than two, are kept. -/
def absolute (folder p : String) : String :=
  let whole := join folder p
  let slashes := (whole.toList.takeWhile (· = '/')).length
  (if slashes = 2 then "//" else "/") ++ String.intercalate "/" (normalParts whole)

end Storyboard.Path
