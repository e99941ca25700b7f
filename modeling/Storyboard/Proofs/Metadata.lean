import Storyboard.Proofs.Json.Written
import Storyboard.Proofs.Program.Folders
import Storyboard.Proofs.Program.Frame

/-!
# Storyboard.Proofs.Metadata

The record beside a video, written more than once.  A record is made from the earlier one: it takes
over the title, the description and the tags, and the rest does not depend on it.  So a record that
is made from itself is itself.  What was written is read as the record, the folder is there and the
file holds the text; so another call changes nothing but what is printed.

* `Specification.metadata_again` — a record that is made from itself;
* `Specification.settled_of_ok` — what a call leaves;
* `Specification.Settled.run_writeMetadata` — the next call leaves it as it is;
* `Specification.writeMetadata_again` — all of it for a call that succeeds.
-/

namespace Storyboard

open Action

/-! ## entries -/

namespace Entries

variable {entries : Entries} {name : String} {v : Value}

theorem isJson_of_get? (h : (Value.map entries).IsJson) (hv : entries.get? name = some v) :
    v.IsJson := by
  obtain ⟨e, he, rfl⟩ := Option.map_eq_some_iff.1 hv
  cases h with
  | map hnames hmembers =>
    obtain ⟨m, hm, rfl⟩ := List.mem_map.1 (List.mem_of_find?_eq_some he)
    exact hmembers m hm

theorem isJson_getD (h : (Value.map entries).IsJson) (name : String) (hv : v.IsJson) :
    (entries.getD name v).IsJson := by
  unfold Entries.getD
  cases hget : entries.get? name with
  | none => exact hv
  | some u => exact isJson_of_get? h hget

theorem getD_of_get? {u : Value} (h : entries.get? name = some u) (v : Value) :
    entries.getD name v = u := by
  rw [Entries.getD, h, Option.getD_some]

/-- A record holds what has been written into an earlier one. -/
structure TakesOver (record earlier : Entries) : Prop where
  title : ∀ v, earlier.get? "title" = some v → v ≠ .null → record.get? "title" = some v
  description : ∀ v, earlier.get? "description" = some v → record.get? "description" = some v
  tags : ∀ v, earlier.get? "tags" = some v → record.get? "tags" = some v

end Entries

namespace Specification

variable {spec : Specification} {existing : Entries} {video thumbnail : Option String}
  {now : String} {record : Value}

/-! ## a record made from another -/

theorem recordTitle_of_ne_null {v : Value} (h : existing.get? "title" = some v) (hv : v ≠ .null) :
    spec.recordTitle existing = v := by
  unfold recordTitle
  rw [Entries.get, Entries.getD_of_get? h]
  split
  · exact absurd rfl hv
  · rfl

theorem recordTitle_ne_null : spec.recordTitle existing ≠ .null := by
  unfold recordTitle
  split
  · exact nofun
  · next hnull => exact hnull

theorem isJson_recordTitle (h : (Value.map existing).IsJson) :
    (spec.recordTitle existing).IsJson := by
  unfold recordTitle
  split
  · exact .text _
  · exact Entries.isJson_getD h "title" .null

theorem isJson_fileNames (video thumbnail : Option String) :
    (fileNames video thumbnail).IsJson := by
  obtain ⟨name, hname, hjson⟩ : ∃ name : Value,
      video.elim (.text "") (fun path => .text (Path.baseName path)) = name ∧ name.IsJson := by
    cases video <;> exact ⟨_, rfl, .text _⟩
  have halone : (Value.map (Entries.ofMembers [("video", name)])).IsJson :=
    .map (List.nodup_singleton _) (by simpa using hjson)
  unfold fileNames
  dsimp only
  rw [hname]
  split
  · exact halone
  · exact halone
  · next path _ =>
    change (Value.map (Entries.ofMembers
      [("video", name), ("thumbnail", .text (Path.baseName path))])).IsJson
    refine .map (by simp) ?_
    simpa using ⟨hjson, Value.IsJson.text _⟩

theorem isJson_recordNumber {v number : Value} (h : v.recordNumber = .ok number) :
    number.IsJson := by
  obtain ⟨d, -, h⟩ := bind_eq_ok.1 h
  obtain ⟨whole, -, h⟩ := bind_eq_ok.1 h
  split at h
  · obtain ⟨i, -, h⟩ := bind_eq_ok.1 h
    exact pure_eq_ok.1 h ▸ .int i
  · exact pure_eq_ok.1 h ▸ .float _

/-- The members of a record. -/
def recordMembers (spec : Specification) (existing : Entries) (video thumbnail : Option String)
    (now : String) (duration : Value) (size : String) : List (String × Value) :=
  [("title", spec.recordTitle existing),
   ("description", existing.getD "description" (.text "")),
   ("tags", existing.getD "tags" (.list [])),
   ("duration", duration),
   ("resolution", .text size),
   ("createdAt", .text now),
   ("files", fileNames video thumbnail)]

/-- What is measured of a video: how long it is, and how large. -/
def measured (spec : Specification) : Except Fault (Value × String) := do
  let duration ← (Value.decimal (← spec.totalDuration)).recordNumber
  let width ← spec.output.width.plainText
  let height ← spec.output.height.plainText
  return (duration, width ++ "x" ++ height)

/-- A record is what is measured of the video, beside what is taken over. -/
theorem metadata_eq_ok : spec.metadata existing video thumbnail (.text now) = .ok record ↔
    ∃ duration size, spec.measured = .ok (duration, size) ∧ record =
      .map (Entries.ofMembers (spec.recordMembers existing video thumbnail now duration size)) := by
  have hsteps : spec.metadata existing video thumbnail (.text now) = spec.measured >>= fun m =>
      pure (.map (Entries.ofMembers
        (spec.recordMembers existing video thumbnail now m.1 m.2))) := by
    simp only [metadata, measured, bind_assoc, pure_bind]
    rfl
  rw [hsteps, bind_eq_ok]
  simp only [pure_eq_ok, Prod.exists]

theorem isJson_of_measured {duration : Value} {size : String}
    (h : spec.measured = .ok (duration, size)) : duration.IsJson := by
  obtain ⟨d, -, h⟩ := bind_eq_ok.1 h
  obtain ⟨duration', hduration, h⟩ := bind_eq_ok.1 h
  obtain ⟨width, -, h⟩ := bind_eq_ok.1 h
  obtain ⟨height, -, h⟩ := bind_eq_ok.1 h
  obtain ⟨rfl, -⟩ := Prod.mk.inj (pure_eq_ok.1 h)
  exact isJson_recordNumber hduration

/-- A record can be held by a document if the earlier one could. -/
theorem isJson_of_metadata (h : (Value.map existing).IsJson)
    (hrecord : spec.metadata existing video thumbnail (.text now) = .ok record) :
    record.IsJson := by
  obtain ⟨duration, size, hmeasured, rfl⟩ := metadata_eq_ok.1 hrecord
  refine .map (by simp [recordMembers]) ?_
  simp only [recordMembers, List.forall_mem_cons]
  exact ⟨isJson_recordTitle h, Entries.isJson_getD h _ (.text ""),
    Entries.isJson_getD h _ (.list (List.forall_mem_nil _)), isJson_of_measured hmeasured, .text _,
    .text _, isJson_fileNames video thumbnail, List.forall_mem_nil _⟩

/-- A record takes over what has been written into the earlier one, and is made from itself. -/
theorem metadata_again
    (hrecord : spec.metadata existing video thumbnail (.text now) = .ok record) :
    ∃ entries : Entries, record = .map entries ∧ entries.TakesOver existing ∧
      spec.metadata entries video thumbnail (.text now) = .ok record := by
  obtain ⟨duration, size, hmeasured, rfl⟩ := metadata_eq_ok.1 hrecord
  obtain ⟨entries, hentries⟩ : ∃ entries : Entries, entries =
      .ofMembers (spec.recordMembers existing video thumbnail now duration size) := ⟨_, rfl⟩
  have htitle : entries.get? "title" = some (spec.recordTitle existing) := hentries ▸ rfl
  have hdescription : entries.get? "description" =
      some (existing.getD "description" (.text "")) := hentries ▸ rfl
  have htags : entries.get? "tags" = some (existing.getD "tags" (.list [])) := hentries ▸ rfl
  refine ⟨entries, congrArg Value.map hentries.symm, ⟨?_, ?_, ?_⟩, ?_⟩
  · intro v hv hnull
    rw [htitle, recordTitle_of_ne_null hv hnull]
  · intro v hv
    rw [hdescription, Entries.getD_of_get? hv]
  · intro v hv
    rw [htags, Entries.getD_of_get? hv]
  · refine metadata_eq_ok.2 ⟨duration, size, hmeasured, ?_⟩
    rw [recordMembers, recordMembers, recordTitle_of_ne_null htitle recordTitle_ne_null,
      Entries.getD_of_get? hdescription, Entries.getD_of_get? htags]

/-! ## the earlier record -/

variable {w later : Workspace} {path : String}

/-- The file that a path leads to holds an object. -/
def HoldsObject (w : Workspace) (path : String) (entries : Entries) : Prop :=
  ∃ content cs, (Action.content path).result w = .ok content ∧ content.chars = .ok cs ∧
    Json.read cs = .ok (.map entries)

/-- The object that a file of this content holds. -/
def objectOf (path : String) (content : Content) : Except Fault Entries := do
  match ← Json.read (← content.chars) with
  | .map entries => return entries
  | _ => throw (.refused (.metaNotObject path))

theorem objectOf_eq_ok {content : Content} : objectOf path content = .ok existing ↔
    ∃ cs, content.chars = .ok cs ∧ Json.read cs = .ok (.map existing) := by
  simp only [objectOf, bind_eq_ok]
  refine exists_congr fun cs => and_congr_right fun _ => ?_
  constructor
  · rintro ⟨v, hv, h⟩
    split at h
    · exact pure_eq_ok.1 h ▸ hv
    · cases h
  · exact fun h => ⟨_, h, rfl⟩

/-- To read the earlier record changes nothing. -/
theorem run_earlierRecord (path : String) (w : Workspace) :
    (earlierRecord path).run.run w =
      (if w.isFile path = true then (Action.content path).result w >>= objectOf path else .ok [],
        w) := by
  rw [earlierRecord, run_get_bind]
  split
  · have hcontent := run_content path w
    cases hresult : (Action.content path).result w with
    | error e =>
      rw [hresult] at hcontent
      exact Action.run_bind_of_error hcontent
    | ok content =>
      rw [hresult] at hcontent
      refine (Action.run_bind_of_ok hcontent).trans ?_
      change _ = (objectOf path content, w)
      unfold objectOf
      cases content.chars with
      | error e => rfl
      | ok cs =>
        rw [lift_ok_bind]
        change _ = (Json.read cs >>= _, w)
        cases Json.read cs with
        | error e => rfl
        | ok v => cases v <;> rfl
  · rfl

theorem after_earlierRecord (path : String) (w : Workspace) : (earlierRecord path).after w = w :=
  congrArg Prod.snd (run_earlierRecord path w)

theorem earlierRecord_of_ok (h : (earlierRecord path).result w = .ok existing) :
    w.isFile path = false ∧ existing = [] ∨ HoldsObject w path existing := by
  rw [result, run_earlierRecord] at h
  dsimp only at h
  split at h
  · obtain ⟨content, hcontent, hobject⟩ := bind_eq_ok.1 h
    obtain ⟨cs, hchars, hread⟩ := objectOf_eq_ok.1 hobject
    exact .inr ⟨content, cs, hcontent, hchars, hread⟩
  · next hmissing => exact .inl ⟨Bool.eq_false_iff.2 hmissing, (Except.ok.inj h).symm⟩

theorem earlierRecord_of_holdsObject (h : HoldsObject w path existing) :
    (earlierRecord path).result w = .ok existing := by
  obtain ⟨content, cs, hcontent, hchars, hread⟩ := h
  rw [result, run_earlierRecord]
  dsimp only
  rw [if_pos (isFile_of_content hcontent)]
  exact bind_eq_ok.2 ⟨content, hcontent, objectOf_eq_ok.2 ⟨cs, hchars, hread⟩⟩

theorem isJson_of_earlierRecord (h : (earlierRecord path).result w = .ok existing) :
    (Value.map existing).IsJson := by
  obtain ⟨-, rfl⟩ | ⟨content, cs, -, -, hread⟩ := earlierRecord_of_ok h
  · exact Json.isJson_noMembers
  · exact Json.isJson_of_read hread

/-! ## the steps of a call -/

variable {text : String}

theorem run_recordText (hearlier : (earlierRecord path).result w = .ok existing)
    (hrecord : spec.metadata existing video thumbnail (.text now) = .ok record)
    (hfolders : (makeFolders (recordFolder path)).result w = .ok ())
    (htext : Json.text record = .ok text) :
    (spec.recordText path video thumbnail now).run.run w =
      (.ok (record, text), (makeFolders (recordFolder path)).after w) := by
  have hread : (earlierRecord path).run.run w = (.ok existing, w) :=
    Prod.ext hearlier (after_earlierRecord path w)
  have hsteps : spec.recordText path video thumbnail now = earlierRecord path >>= fun existing =>
      liftM (spec.metadata existing video thumbnail (.text now)) >>= fun record =>
        makeFolders (recordFolder path) >>= fun _ =>
          liftM (Json.text record) >>= fun text => pure (record, text) := rfl
  rw [hsteps, Action.run_bind_of_ok hread, hrecord, lift_ok_bind,
    Action.run_bind_of_ok (run_of_result hfolders), htext, lift_ok_bind]
  rfl

/-- A record can be written, and its path can be printed if it has to be. -/
structure Accepts (w : Workspace) (path text : String) : Prop where
  takes : w.Takes path
  sound : Text.hasHalf text = false
  told : w.quiet = true ∨ Text.hasHalf path = false

theorem accepts_of_writeRecord {r : Value} (h : (writeRecord path record text).result w = .ok r) :
    Accepts w path text := by
  unfold writeRecord at h
  split at h
  · obtain ⟨-, -, hthrow⟩ := result_bind_eq_ok.1 h
    cases hthrow
  · next hhalf =>
    obtain ⟨_, hwrite, h⟩ := result_bind_eq_ok.1 h
    obtain ⟨_, hnote, -⟩ := result_bind_eq_ok.1 h
    rw [result_note, hasHalf_written, (get?_after_write hwrite).1.quiet] at hnote
    exact ⟨takes_of_write hwrite, Bool.eq_false_iff.2 hhalf, hnote⟩

/-- A record that is accepted is saved, and a note is printed. -/
theorem run_writeRecord (record : Value) (h : Accepts w path text) :
    ∃ printed, (writeRecord path record text).run.run w =
      (.ok record, { w.put (w.place path) (.text (text ++ "\n")) with printed := printed }) := by
  obtain ⟨hwrite, hput⟩ := write_of_takes h.takes (.text (text ++ "\n"))
  have hsave : (write path (.text (text ++ "\n"))).run.run w =
      (.ok (), w.put (w.place path) (.text (text ++ "\n"))) := Prod.ext hwrite hput
  obtain ⟨printed, hnote⟩ := run_note_of_ok (w := w.put (w.place path) (.text (text ++ "\n")))
    (result_note.2 ((hasHalf_written path).symm ▸ h.told))
  refine ⟨printed, ?_⟩
  rw [writeRecord, h.sound, if_neg (by decide), Action.run_bind_of_ok hsave,
    Action.run_bind_of_ok hnote]
  rfl

/-! ## one call after another -/

/-- A record that would be made from itself is kept at a path, and can be saved there again. -/
structure Settled (spec : Specification) (path : String) (video thumbnail : Option String)
    (now : String) (w : Workspace) (record : Value) (text : String) : Prop where
  folders : w.Walks (recordFolder path)
  accepts : Accepts w path text
  file : w.get? (w.place path) = some (.text (text ++ "\n"))
  isJson : record.IsJson
  written : Json.text record = .ok text
  again : ∃ entries, record = .map entries ∧
    spec.metadata entries video thumbnail (.text now) = .ok record

/-- What is printed does not matter. -/
theorem Settled.print {text : String} (h : spec.Settled path video thumbnail now w record text)
    (printed : List String) :
    spec.Settled path video thumbnail now { w with printed := printed } record text where
  folders := h.folders.grow ⟨rfl, fun _ => id⟩
  accepts := ⟨h.accepts.takes, h.accepts.sound, h.accepts.told⟩
  file := h.file
  isJson := h.isJson
  written := h.written
  again := h.again

/-- A record is kept where it was written. -/
theorem settled_put {text : String} (hfolders : w.Walks (recordFolder path))
    (haccepts : Accepts w path text) (hjson : record.IsJson)
    (hwritten : Json.text record = .ok text)
    (hagain : ∃ entries, record = .map entries ∧
      spec.metadata entries video thumbnail (.text now) = .ok record) :
    spec.Settled path video thumbnail now (w.put (w.place path) (.text (text ++ "\n"))) record
      text where
  folders := hfolders.grow (w.grows_put _ _)
  accepts := ⟨haccepts.takes.put _, haccepts.sound, haccepts.told⟩
  file := w.get?_put_self _ _
  isJson := hjson
  written := hwritten
  again := hagain

/-- What a call leaves, if it succeeds. -/
theorem settled_of_ok
    (h : (spec.writeMetadata path video thumbnail now).run.run w = (.ok record, later)) :
    ∃ existing text, (earlierRecord path).result w = .ok existing ∧
      spec.metadata existing video thumbnail (.text now) = .ok record ∧
      spec.Settled path video thumbnail now later record text := by
  rw [writeMetadata_eq] at h
  obtain ⟨⟨record', text⟩, hrecord, -⟩ := result_bind_eq_ok.1 (result_of_run h)
  obtain ⟨existing, hearlier, hmetadata, hfolders, htext⟩ := recordText_of_ok hrecord
  rw [after_earlierRecord] at hfolders
  rw [Action.run_bind_of_ok (run_recordText hearlier hmetadata hfolders htext)] at h
  have haccepts := accepts_of_writeRecord (result_of_run h)
  obtain ⟨printed, hwrite⟩ := run_writeRecord record' haccepts
  obtain ⟨hresult, rfl⟩ := Prod.mk.inj (hwrite.symm.trans h)
  obtain rfl := Except.ok.inj hresult
  obtain ⟨entries, hentries, -, hagain⟩ := metadata_again hmetadata
  have hwalks := (walks_of_makeFolders hfolders).2
  have hjson := isJson_of_metadata (isJson_of_earlierRecord hearlier) hmetadata
  have hsettled := settled_put hwalks haccepts hjson htext ⟨entries, hentries, hagain⟩
  exact ⟨existing, text, hearlier, hmetadata, hsettled.print printed⟩

namespace Settled

variable (h : spec.Settled path video thumbnail now w record text)

include h

/-- The file that is kept is read as the record. -/
theorem holdsText : (Action.content path).result w = .ok (.text (text ++ "\n")) ∧
    Json.read (text ++ "\n").toList = .ok record := by
  obtain ⟨place, hlocate, -⟩ := h.accepts.takes
  obtain rfl := Workspace.place_of_locate hlocate
  exact ⟨content_eq_ok.2 ⟨_, hlocate, h.file⟩, Json.read_of_text h.isJson h.written⟩

/-- Another call returns the same record, and changes nothing but what is printed. -/
theorem run_writeMetadata : ∃ printed, (spec.writeMetadata path video thumbnail now).run.run w =
    (.ok record, { w with printed := printed }) := by
  obtain ⟨entries, rfl, hagain⟩ := h.again
  obtain ⟨hcontent, hread⟩ := h.holdsText
  have hearlier : (earlierRecord path).result w = .ok entries :=
    earlierRecord_of_holdsObject ⟨_, _, hcontent, Json.chars_of_text h.isJson h.written, hread⟩
  obtain ⟨hfolders, hsame⟩ := makeFolders_of_walks h.folders
  have htext := run_recordText hearlier hagain hfolders h.written
  obtain ⟨printed, hwrite⟩ := run_writeRecord (.map entries) h.accepts
  refine ⟨printed, ?_⟩
  rw [hsame] at htext
  rw [writeMetadata_eq, Action.run_bind_of_ok htext, hwrite, Workspace.put_of_get? h.file]

end Settled

/-- After a call that succeeds the file is read as the record, another call returns the same record
and changes nothing but what is printed, and the record has taken over what people have written into
the object that the file held before. -/
theorem writeMetadata_again
    (h : (spec.writeMetadata path video thumbnail now).run.run w = (.ok record, later)) :
    ∃ (entries : Entries) (text : String),
      record = .map entries ∧
      (Action.content path).result later = .ok (.text text) ∧
      Json.read text.toList = .ok record ∧
      (∃ printed, (spec.writeMetadata path video thumbnail now).run.run later =
        (.ok record, { later with printed := printed })) ∧
      ∀ earlier, HoldsObject w path earlier → entries.TakesOver earlier := by
  obtain ⟨existing, text, hearlier, hmetadata, hsettled⟩ := settled_of_ok h
  obtain ⟨entries, hentries, hover, -⟩ := metadata_again hmetadata
  obtain ⟨hcontent, hread⟩ := hsettled.holdsText
  refine ⟨entries, text ++ "\n", hentries, hcontent, hread, hsettled.run_writeMetadata, ?_⟩
  intro earlier hobject
  obtain rfl := Except.ok.inj (hearlier.symm.trans (earlierRecord_of_holdsObject hobject))
  exact hover

/-- A specification with one scene. -/
def diaryFilm : Specification where
  scenes := [{ id := "sky", duration := 4 }]

/-- A description with a control character, and with a character that is lent to a half. -/
def diaryWords : String := String.ofList ('\x01' :: Text.spelled (Char.ofNat 0x10D800))

/-- A record as somebody has written it. -/
def diaryText : String :=
  "\x7b\"tags\":[\"sea\",[null,7]],\"title\":\"Trip\",\"description\":\"\\u0001\\udbf6\\udc00\"\x7d"

/-- What it says. -/
def diaryEntries : Entries :=
  [("tags", .list ["sea", .list [.null, 7]]), ("title", "Trip"), ("description", .text diaryWords)]

/-- A folder with this record. -/
def diaryFolder : Workspace where
  folder := ["job"]
  files := [(["job", "out", "meta.json"], .text diaryText)]

/-- A title, a description and tags that were written by hand stay. -/
theorem writeMetadata_diary :
    let call := diaryFilm.writeMetadata "out/meta.json" (some "out/sky.mp4") none "noon"
    HoldsObject diaryFolder "out/meta.json" diaryEntries ∧
      ∃ (entries : Entries) (text : String) (later : Workspace) (printed : List String),
        call.run.run diaryFolder = (.ok (.map entries), later) ∧
        (Action.content "out/meta.json").result later = .ok (.text text) ∧
        Json.read text.toList = .ok (.map entries) ∧
        call.run.run later = (.ok (.map entries), { later with printed := printed }) ∧
        entries.get? "title" = some "Trip" ∧ entries.get? "description" = some (.text diaryWords) ∧
        entries.get? "tags" = some (.list ["sea", .list [.null, 7]]) := by
  intro call
  have hobject : HoldsObject diaryFolder "out/meta.json" diaryEntries := by
    refine ⟨.text diaryText, diaryText.toList, ?_, ?_, ?_⟩
    · exact content_eq_ok.2 ⟨["job", "out", "meta.json"], by decide +kernel, by decide +kernel⟩
    · exact congrArg Except.ok (by decide +kernel)
    · simp only [diaryText, String.reduceToList]
      rfl
  obtain ⟨record, hresult⟩ := exists_of_isOk (x := call.result diaryFolder) (by decide +kernel)
  obtain ⟨entries, text, rfl, hcontent, hread, ⟨printed, hagain⟩, hover⟩ :=
    writeMetadata_again (run_of_result hresult)
  have htaken := hover diaryEntries hobject
  have hnull : Value.text "Trip" ≠ .null := by simp
  exact ⟨hobject, entries, text, _, printed, run_of_result hresult, hcontent, hread, hagain,
    htaken.title _ rfl hnull, htaken.description _ rfl, htaken.tags _ rfl⟩

end Specification

end Storyboard
