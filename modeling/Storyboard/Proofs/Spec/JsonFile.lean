import Storyboard.Proofs.Program.Files
import Storyboard.Proofs.Yaml.Reader
import Storyboard.Proofs.Yaml.Shared
import Storyboard.Spec.File

/-!
# Storyboard.Proofs.Spec.JsonFile

A specification in a JSON file.  The file is read as YAML, so what is loaded is what its
spelling means there; that is the JSON value for spellings that both languages read alike.

* `Specification.result_document` — what reading a file comes to;
* `Specification.load_json` — what loading a JSON file comes to;
* `Specification.load_exponent` — a duration of `1e3` is text, and refused.
-/

namespace Storyboard

open Action Yaml

namespace Specification

variable {w : Workspace} {path : String} {content : Content}

/-- A file that is not too large holds the value of its text. -/
theorem result_document (hfile : (Action.content path).result w = .ok content)
    (hsize : content.size ≤ sizeLimit) :
    (document path).result w = content.chars.bind Yaml.read := by
  rw [document, (bind_of_ok hfile).1, if_neg (by omega)]
  cases content.chars with
  | error f => rfl
  | ok cs => exact result_lift _

/-- To read a file changes nothing. -/
theorem after_document (path : String) (w : Workspace) : (document path).after w = w := by
  rw [document]
  cases hfile : (Action.content path).result w with
  | error f => rw [(bind_of_error hfile).2, after, run_content]
  | ok content =>
    rw [(bind_of_ok hfile).2, after, after, run_content]
    split
    · rfl
    · cases content.chars with
      | error f => rfl
      | ok cs => exact after_lift _ _

/-- What was read from a path, unless the note that names the path cannot be printed. -/
def reported (w : Workspace) (path : String) (read : Except Fault Specification) :
    Except Fault Specification :=
  if w.quiet || !Text.hasHalf path then read else read.bind fun _ => .error .surrogateUnpaired

/-- The note about a specification has a half in it only if its path has one. -/
theorem hasHalf_loaded (m n : Nat) (path : String) :
    Text.hasHalf ("loaded " ++ m.repr ++ " scene(s), " ++ n.repr ++ " audio track(s) from " ++ path)
      = Text.hasHalf path := by
  have hwords : Text.hasHalf "loaded " = false ∧ Text.hasHalf " scene(s), " = false ∧
      Text.hasHalf " audio track(s) from " = false := by decide
  simp only [Text.hasHalf_append, Number.hasHalf_natRepr, hwords, Bool.false_or]

/-- What is loaded from a file is the specification of its value. -/
theorem result_load (path : String) (w : Workspace) :
    (load (some path)).result w = reported w path (((document path).result w).bind ofValue) := by
  unfold load reported
  cases hdocument : (document path).result w with
  | error f =>
    rw [(bind_of_error hdocument).1]
    split <;> rfl
  | ok v =>
    rw [(bind_of_ok hdocument).1]
    change _ = if _ then ofValue v else (ofValue v).bind _
    cases ofValue v with
    | error f =>
      rw [(bind_of_error (result_lift _)).1]
      split <;> rfl
    | ok spec =>
      rw [(bind_of_ok (result_lift (.ok spec))).1, after_lift, after_document, result_note_pure,
        hasHalf_loaded]
      rfl

/-- A spelling of an object that fits is loaded as what it means in YAML. -/
theorem load_spelling {d : Json.Document} {entries : Entries}
    (hfile : (Action.content path).result w = .ok content)
    (hchars : content.chars = .ok (Content.unixLines d.chars)) (hsize : content.size ≤ sizeLimit)
    (hvalue : d.value = .map entries) (hfits : d.fits = true) :
    (load (some path)).result w = reported w path (ofValue d.root.flow.value) := by
  rw [result_load, result_document hfile hsize, hchars, d.unixLines_chars]
  exact congrArg (fun r : Except Fault Value => reported w path (r.bind ofValue))
    (d.read_unixChars hvalue hfits)

/-! ## a text with one scene -/

/-- What stands before the duration in a text with one scene. -/
def skyStart : String := "\x7b\"scenes\": [\x7b\"id\": \"sky\", \"duration\": "

/-- What stands behind it. -/
def skyEnd : String := "\x7d]\x7d"

/-- A text with one scene, whose duration is spelt in some way. -/
def skyText (duration : String) : String := skyStart ++ (duration ++ skyEnd)

/-- A folder with such a text in a file. -/
def skyFolder (duration : String) : Workspace where
  folder := ["job"]
  files := [(["job", "spec.json"], .text (skyText duration))]

/-- The entries of such a text. -/
def skyEntries (duration : Value) : Entries :=
  [(.text "scenes", .list [.map [(.text "id", .text "sky"), (.text "duration", duration)]])]

/-- A string of characters that stand for themselves. -/
def rawPieces (cs : List Char) (h : cs.all Json.isRaw = true) : Json.Pieces :=
  cs.attach.map fun c => .char c.1 (List.all_eq_true.1 h c.1 c.2)

/-- The spelling of such a text. -/
def skyDocument (n : Json.Literal) (v : Value) (h : n.value? = some v) : Json.Document where
  before := []
  root := .object [] (.last (.mk (rawPieces ['s', 'c', 'e', 'n', 'e', 's'] rfl) [] [.space]
    (.list [] (.last (.object []
      (.more (.mk (rawPieces ['i', 'd'] rfl) [] [.space]
          (.string (rawPieces ['s', 'k', 'y'] rfl))) [] [.space]
        (.last (.mk (rawPieces ['d', 'u', 'r', 'a', 't', 'i', 'o', 'n'] rfl) [] [.space]
          (.number n v h)) []))) []))) [])
  after := []

variable {n : Json.Literal} {v : Value}

theorem chars_skyDocument (h : n.value? = some v) :
    (skyDocument n v h).chars = (skyText (String.ofList n.chars)).toList := by
  rw [skyText, String.toList_append, String.toList_append, String.toList_ofList]
  simp only [skyDocument, Json.Document.chars, Json.Spelling.chars, Json.Items.chars,
    Json.Member.chars, Json.Members.chars, List.append_assoc, List.cons_append]
  rfl

theorem value_skyDocument (h : n.value? = some v) :
    (skyDocument n v h).value = .map (skyEntries v) := by
  rfl

theorem fits_skyDocument (h : n.value? = some v) : (skyDocument n v h).fits = true := by
  rfl

/-- The number `1.0e+3`. -/
def signedThousand : Json.Literal where
  negative := false
  whole := ['1']
  fraction := ['0']
  whole_ne_nil := by simp
  isDigit := by simp
  exponent := some ⟨'e', ['+'], ['3'], .inl rfl, .inr (.inl rfl), by simp, by simp⟩
  leading := by simp

theorem value?_signedThousand : signedThousand.value? = some (.float 1000.0) := by
  rfl

theorem chars_signedThousand : String.ofList signedThousand.chars = "1.0e+3" := by
  decide

/-! ## what a JSON file is loaded as -/

/-- A JSON text has a spelling.  If a spelling of it fits, it is loaded as what the spelling means
in YAML; and if that is the same in JSON, as its JSON value.  Only a path that cannot be printed
stands in the way, where it is named in a note. -/
theorem load_json {cs : List Char} {entries : Entries}
    (hfile : (Action.content path).result w = .ok content)
    (hchars : content.chars = .ok (Content.unixLines cs)) (hsize : content.size ≤ sizeLimit)
    (hread : Json.read cs = .ok (.map entries)) :
    (∃ d : Json.Document, d.chars = cs) ∧
      ∀ d : Json.Document, d.chars = cs → d.fits = true →
        (load (some path)).result w = reported w path (ofValue d.root.flow.value) ∧
          (d.root.isShared = true →
            (load (some path)).result w = reported w path (ofValue (.map entries))) := by
  obtain ⟨d, hd, -⟩ := Json.exists_document hread
  refine ⟨⟨d, hd⟩, ?_⟩
  rintro d rfl hfits
  have hvalue : d.value = .map entries := Except.ok.inj (d.read_chars.symm.trans hread)
  have hload := load_spelling hfile hchars hsize hvalue hfits
  refine ⟨hload, fun hshared => ?_⟩
  rw [hload, d.root.value_flow hshared]
  exact congrArg (fun v => reported w path (ofValue v)) hvalue

/-- With a point and a sign it is the same number in both. -/
theorem load_signedThousand :
    Json.read (skyText "1.0e+3").toList = .ok (.map (skyEntries (.float 1000.0))) ∧
      (Content.text (skyText "1.0e+3")).size ≤ sizeLimit ∧
      (load (some "spec.json")).result (skyFolder "1.0e+3") =
        ofValue (.map (skyEntries (.float 1000.0))) := by
  have hchars := chars_skyDocument value?_signedThousand
  rw [chars_signedThousand] at hchars
  have hread : Json.read (skyText "1.0e+3").toList = .ok (.map (skyEntries (.float 1000.0))) := by
    rw [← hchars, Json.Document.read_chars, value_skyDocument]
  have hsize : (Content.text (skyText "1.0e+3")).size ≤ sizeLimit := by decide +kernel
  have hfile : (Action.content "spec.json").result (skyFolder "1.0e+3") =
      .ok (.text (skyText "1.0e+3")) := by
    rfl
  have hload := (load_json hfile rfl hsize hread).2 (skyDocument signedThousand _ _) hchars
  exact ⟨hread, hsize, (hload (fits_skyDocument value?_signedThousand)).2 rfl⟩

/-! ## an exponent without a sign -/

/-- Such a text is loaded as what the duration means in YAML. -/
theorem load_skyFolder (h : n.value? = some v)
    (hsize : (Content.text (skyText (String.ofList n.chars))).size ≤ sizeLimit) :
    (load (some "spec.json")).result (skyFolder (String.ofList n.chars)) =
      ofValue (.map (skyEntries (n.yamlValue v))) := by
  have hfile : (Action.content "spec.json").result (skyFolder (String.ofList n.chars)) =
      .ok (.text (skyText (String.ofList n.chars))) := by
    rfl
  have hchars : (Content.text (skyText (String.ofList n.chars))).chars =
      .ok (Content.unixLines (skyDocument n v h).chars) := by
    rw [chars_skyDocument]
    rfl
  have hload := load_spelling hfile hchars hsize (value_skyDocument h) (fits_skyDocument h)
  rwa [reported, if_pos (Bool.or_eq_true_iff.2 (.inr (by decide)))] at hload

/-- An exponent without a point or without a sign makes the duration a text, which is refused. -/
theorem load_skyFolder_of_unshared (h : n.value? = some v)
    (hunshared : (n.isReal || n.isInteger) = false)
    (hsize : (Content.text (skyText (String.ofList n.chars))).size ≤ sizeLimit) :
    (load (some "spec.json")).result (skyFolder (String.ofList n.chars)) =
      .error (.refused (.broken (.field (.item (.root "scenes") 0) "duration") .number)) := by
  rw [load_skyFolder h hsize, Json.Literal.yamlValue, if_neg (by simp [hunshared])]
  rfl

/-- The number `1e3`. -/
def plainThousand : Json.Literal where
  negative := false
  whole := ['1']
  fraction := []
  whole_ne_nil := by simp
  isDigit := by simp
  exponent := some ⟨'e', [], ['3'], .inl rfl, .inl rfl, by simp, by simp⟩
  leading := by simp

theorem value?_plainThousand : plainThousand.value? = some (.float 1000.0) := by
  rfl

theorem chars_plainThousand : String.ofList plainThousand.chars = "1e3" := by
  decide

/-- A duration of `1e3` is a number in JSON, and no number when it is loaded. -/
theorem load_exponent :
    Json.read (skyText "1e3").toList = .ok (.map (skyEntries (.float 1000.0))) ∧
      (ofValue (.map (skyEntries (.float 1000.0)))).isOk = true ∧
      (load (some "spec.json")).result (skyFolder "1e3") =
        .error (.refused (.broken (.field (.item (.root "scenes") 0) "duration") .number)) := by
  have hread := (skyDocument plainThousand _ value?_plainThousand).read_chars
  have hload := load_skyFolder_of_unshared value?_plainThousand (by decide)
  rw [chars_skyDocument, value_skyDocument, chars_plainThousand] at hread
  rw [chars_plainThousand] at hload
  exact ⟨hread, by decide, hload (by decide +kernel)⟩

end Specification

end Storyboard
