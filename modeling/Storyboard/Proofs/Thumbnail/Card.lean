import Storyboard.Proofs.Color.Drawn
import Storyboard.Proofs.Path
import Storyboard.Proofs.Program.Frame
import Storyboard.Proofs.Summary
import Storyboard.Proofs.Value.Rate

/-!
# Storyboard.Proofs.Thumbnail.Card

The card that a thumbnail is made from.  Whatever color and size were read from a specification,
the card is drawn where pictures can have that size: it has it, and the red, green and blue that the
color stands for.  After the card is kept, a note names its size and its path, and nothing but the
note can fail: for a size with more digits than an integer is written with, or for a path that
cannot be printed.

* `drawCard_of_ok` — what is drawn if the card succeeds;
* `draws_drawCard` — what is drawn, whatever the size;
* `Specification.card_shows_color` — the card of a specification that was read;
* `Specification.wide_card_fails` — a side of so many digits that its card is not reported.
-/

namespace Storyboard

open Action Number

namespace Thumbnail

variable {outfile color path : String} {width height : Value} {w : Workspace} {rgb : Color.RGB}
  {W H : Nat}

/-- The note about a card. -/
def cardNote (outfile color size : String) : String :=
  "thumbnail background " ++ size ++ " " ++ Color.forCard color ++ " -> " ++ outfile

/-- What is said about a card after it is kept. -/
def reportCard (outfile color : String) (width height : Value) : Action String := do
  let size ← Command.sizeText width height
  Action.note (cardNote outfile color size)
  return outfile

theorem harmless_reportCard : Harmless (reportCard outfile color width height) :=
  (harmless_lift _).bind fun _ => (harmless_note _).bind fun _ => harmless_pure _

theorem reportCard_eq_ok : (reportCard outfile color width height).result w = .ok path ↔
    path = outfile ∧ ∃ size, Command.sizeText width height = .ok size ∧
      (w.quiet = true ∨ Text.hasHalf (cardNote outfile color size) = false) := by
  rw [reportCard, result_bind_eq_ok]
  constructor
  · rintro ⟨size, hsize, h⟩
    obtain ⟨_, hnote, h⟩ := result_bind_eq_ok.1 h
    rw [after_lift] at hnote
    rw [result_lift] at hsize
    exact ⟨(Except.ok.inj h).symm, size, hsize, result_note.1 hnote⟩
  · rintro ⟨rfl, size, hsize, hnote⟩
    refine ⟨size, by rw [result_lift, hsize], ?_⟩
    rw [after_lift, (bind_of_ok (result_note.2 hnote)).1]
    rfl

/-- With a color and a size, it is up to the workspace, the extension and the way to the file. -/
theorem run_drawCard (hrgb : Color.rgb? (Color.forCard color) = some rgb)
    (hwidth : side width = .ok W) (hheight : side height = .ok H) (w : Workspace) :
    (drawCard outfile color width height).run.run w =
      if w.holds W H = true then
        if Text.lower (Path.extension outfile) ∈ cardExtensions then
          (write outfile (.picture W H rgb) >>= fun _ =>
            reportCard outfile color width height).run.run w
        else (.error .valueUnsuited, w)
      else (.error .integerTooLarge, w) := by
  simp only [drawCard, hrgb, hwidth, hheight, lift_ok_bind]
  rw [run_get_bind]
  split
  · split <;> rfl
  · rfl

theorem after_drawCard (hrgb : Color.rgb? (Color.forCard color) = some rgb)
    (hwidth : side width = .ok W) (hheight : side height = .ok H) (hholds : w.holds W H = true)
    (hextension : Text.lower (Path.extension outfile) ∈ cardExtensions) (htakes : w.Takes outfile) :
    ((drawCard outfile color width height).after w).get? (w.place outfile)
        = some (.picture W H rgb) ∧
      ((drawCard outfile color width height).result w = .ok outfile ↔
        ∃ size, Command.sizeText width height = .ok size ∧
          (w.quiet = true ∨ Text.hasHalf (cardNote outfile color size) = false)) := by
  obtain ⟨hwrite, hput⟩ := write_of_takes htakes (.picture W H rgb)
  have hrun : (drawCard outfile color width height).run.run w = _ :=
    run_drawCard hrgb hwidth hheight w
  rw [if_pos hholds, if_pos hextension, Action.run_bind_of_ok (run_of_result hwrite), hput] at hrun
  rw [result, after, hrun]
  refine ⟨(harmless_reportCard _ _).file.trans (w.get?_put_self _ _), ?_⟩
  exact reportCard_eq_ok.trans (and_iff_right rfl)

/-- A card that was drawn is there, in the color and the size that it was asked for. -/
theorem drawCard_of_ok (h : (drawCard outfile color width height).result w = .ok path) :
    path = outfile ∧ ∃ rgb W H, Color.rgb? (Color.forCard color) = some rgb ∧
      side width = .ok W ∧ side height = .ok H ∧
      ((drawCard outfile color width height).after w).get? (w.place outfile)
        = some (.picture W H rgb) := by
  cases hrgb : Color.rgb? (Color.forCard color) with
  | none =>
    rw [drawCard, hrgb] at h
    cases h
  | some rgb =>
    cases hwidth : side width with
    | error e =>
      rw [drawCard, hrgb, hwidth] at h
      cases h
    | ok W =>
      cases hheight : side height with
      | error e =>
        rw [drawCard, hrgb, hwidth, hheight] at h
        cases h
      | ok H =>
        rw [result, run_drawCard hrgb hwidth hheight] at h
        rw [after, run_drawCard hrgb hwidth hheight]
        split at h
        · next hholds =>
          split at h
          · next hextension =>
            obtain ⟨_, hwrite, hreport⟩ := result_bind_eq_ok.1 h
            refine ⟨(reportCard_eq_ok.1 hreport).1, rgb, W, H, rfl, rfl, rfl, ?_⟩
            rw [if_pos hholds, if_pos hextension, Action.run_bind_of_ok (run_of_result hwrite)]
            exact (harmless_reportCard _ _).file.trans (get?_after_write hwrite).2
          · cases h
        · cases h

/-! ## what was read from a specification -/

theorem exists_side {v : Value} (h : Spec.Field.WholeInRange .aboveZero v) :
    ∃ n : Nat, 0 < n ∧ v = .int n := by
  obtain ⟨i, rfl, hpos⟩ := h.pos
  obtain ⟨n, rfl⟩ := Int.eq_ofNat_of_zero_le hpos.le
  exact ⟨n, by exact_mod_cast hpos, rfl⟩

/-- A size can be written if both of its sides can. -/
theorem sizeText_eq_ok {size : String} : Command.sizeText (.int W) (.int H) = .ok size ↔
    (W < tens digitLimit ∧ H < tens digitLimit) ∧ size = W.repr ++ "x" ++ H.repr := by
  simp only [Command.sizeText, bind_eq_ok, pure_eq_ok, Value.plainText_int, integerText_eq_ok,
    Int.natAbs_natCast]
  constructor
  · rintro ⟨_, ⟨hwidth, rfl⟩, _, ⟨hheight, rfl⟩, rfl⟩
    exact ⟨⟨hwidth, hheight⟩, rfl⟩
  · rintro ⟨⟨hwidth, hheight⟩, rfl⟩
    exact ⟨_, ⟨hwidth, rfl⟩, _, ⟨hheight, rfl⟩, rfl⟩

/-- The note about a card has a half in it only if its path has one. -/
theorem hasHalf_cardNote (hcolor : Color.StandsFor color.toList rgb) :
    Text.hasHalf (cardNote outfile color (W.repr ++ "x" ++ H.repr)) = Text.hasHalf outfile := by
  have hstart : Text.hasHalf "thumbnail background " = false := by decide
  have htimes : Text.hasHalf "x" = false := by decide
  have hblank : Text.hasHalf " " = false := by decide
  have harrow : Text.hasHalf " -> " = false := by decide
  unfold cardNote
  simp only [Text.hasHalf_append]
  rw [hasHalf_natRepr, hasHalf_natRepr, hcolor.hasHalf_forCard, hstart, htimes, hblank, harrow]
  rfl

theorem extension_cardPath (outfile : String) :
    Text.lower (Path.extension (cardPath outfile)) ∈ cardExtensions := by
  rw [cardPath, Path.extension_stem_append Path.isMark_card]
  decide

/-- A card is drawn to a path: the file is kept whatever its size, and the note about it is made
unless the size has too many digits to be written, or the path cannot be printed. -/
structure Draws (x : Action String) (w : Workspace) (path : String) (W H : Nat)
    (rgb : Color.RGB) : Prop where
  file : (x.after w).get? (w.place path) = some (.picture W H rgb)
  result : x.result w = .ok path ↔
    (W < tens digitLimit ∧ H < tens digitLimit) ∧ (w.quiet = true ∨ Text.hasHalf path = false)

/-- A card of any size is drawn in the color that is asked for. -/
theorem draws_drawCard (hW : 0 < W) (hH : 0 < H) (hcolor : Color.StandsFor color.toList rgb)
    (hholds : w.holds W H = true) (htakes : w.Takes (cardPath outfile)) :
    Draws (drawCard (cardPath outfile) color (.int W) (.int H)) w (cardPath outfile) W H rgb := by
  have hwidth : side (.int W) = .ok W := if_pos (by exact_mod_cast hW)
  have hheight : side (.int H) = .ok H := if_pos (by exact_mod_cast hH)
  obtain ⟨hfile, hresult⟩ := after_drawCard hcolor.rgb?_forCard hwidth hheight hholds
    (extension_cardPath outfile) htakes
  refine ⟨hfile, hresult.trans ?_⟩
  simp only [sizeText_eq_ok, and_assoc, exists_and_left, exists_eq_left, hasHalf_cardNote hcolor]

end Thumbnail

namespace Specification

open Thumbnail

variable {data : Value} {spec : Specification} {video : Option String}
  {outfile base mode color : String} {w : Workspace}

/-- A thumbnail on a card is made in two steps, of which the second leaves the files alone. -/
theorem planThumbnail_card (henabled : spec.thumbnail.enabled = true)
    (hsource : spec.thumbnail.source = .custom (.color color)) :
    spec.planThumbnail video outfile base mode = (do
      let card ← drawCard (cardPath outfile) color spec.thumbnail.width spec.thumbnail.height
      return [← spec.thumbnail.command card outfile base]) := by
  simp only [planThumbnail, henabled, hsource, if_true]
  rfl

/-- The card stays as it was drawn, also if the thumbnail cannot be decorated. -/
theorem get?_after_planThumbnail (henabled : spec.thumbnail.enabled = true)
    (hsource : spec.thumbnail.source = .custom (.color color)) (video : Option String)
    (outfile base mode : String) (w : Workspace) (place : Parts) :
    ((spec.planThumbnail video outfile base mode).after w).get? place
      = ((drawCard (cardPath outfile) color spec.thumbnail.width
          spec.thumbnail.height).after w).get? place := by
  rw [planThumbnail_card henabled hsource]
  cases hcard : (drawCard (cardPath outfile) color spec.thumbnail.width
      spec.thumbnail.height).result w with
  | error e => rw [(bind_of_error hcard).2]
  | ok card =>
    rw [(bind_of_ok hcard).2]
    exact (((harmless_command card outfile base).bind fun _ => harmless_pure _) _ place).file

/-- What was read as the color of a card is drawn on a card of the size that was read, in every
spelling of the color. -/
theorem card_shows_color (h : ofValue data = .ok spec)
    (hsource : spec.thumbnail.source = .custom (.color color))
    (hascii : ∀ c ∈ color.toList, c.toNat < 128 ∧ c ≠ '\n') :
    ∃ (W H : Nat) (rgb : Color.RGB),
      (0 < W ∧ spec.thumbnail.width = .int W) ∧ (0 < H ∧ spec.thumbnail.height = .int H) ∧
      Color.StandsFor color.toList rgb ∧
      (∀ spelling, Color.IsDocumented spelling →
        Color.plainForm spelling.toList = Color.plainForm color.toList →
        ∀ outfile w, w.Takes (cardPath outfile) → w.holds W H = true →
          Draws (drawCard (cardPath outfile) spelling spec.thumbnail.width spec.thumbnail.height) w
            (cardPath outfile) W H rgb) ∧
      (spec.thumbnail.enabled = true →
        ∀ video outfile base mode w, w.Takes (cardPath outfile) → w.holds W H = true →
          ((spec.planThumbnail video outfile base mode).after w).get? (w.place (cardPath outfile))
            = some (.picture W H rgb)) := by
  have haccepted := (accepted_of_ofValue h).thumbnail
  obtain ⟨W, hW, hwidth⟩ := exists_side haccepted.width
  obtain ⟨H, hH, hheight⟩ := exists_side haccepted.height
  have hcolor : Color.isColor color = true := by
    have hsource' := haccepted.source
    rw [hsource] at hsource'
    cases hsource' with
    | color hcolor => exact hcolor
  have hdocumented : Color.IsDocumented color := by
    obtain hdocumented | ⟨cs, -, hline⟩ | ⟨hkelvin, -⟩ := Color.isColor_iff.1 hcolor
    · exact hdocumented
    · exact absurd rfl (hascii '\n' (by simp [hline])).2
    · exact absurd (hascii _ hkelvin).1 (by decide)
  obtain ⟨rgb, hrgb⟩ := hdocumented.exists_standsFor
  have hdraws : ∀ spelling, Color.IsDocumented spelling →
      Color.plainForm spelling.toList = Color.plainForm color.toList →
      ∀ outfile w, w.Takes (cardPath outfile) → w.holds W H = true →
        Draws (drawCard (cardPath outfile) spelling spec.thumbnail.width spec.thumbnail.height) w
          (cardPath outfile) W H rgb := by
    intro spelling hspelling hplain outfile w htakes hholds
    obtain ⟨other, hother⟩ := hspelling.exists_standsFor
    obtain rfl := hother.eq_of_plainForm_eq hrgb hplain
    rw [hwidth, hheight]
    exact draws_drawCard hW hH hother hholds htakes
  refine ⟨W, H, rgb, ⟨hW, hwidth⟩, ⟨hH, hheight⟩, hrgb, hdraws, ?_⟩
  intro henabled video outfile base mode w htakes hholds
  rw [get?_after_planThumbnail henabled hsource]
  exact (hdraws color hdocumented rfl outfile w htakes hholds).file

/-- A thumbnail on a card of some width. -/
def cardValue (width : Value) : Value :=
  .map [("width", width), ("source", .map [("type", "custom"),
    ("background", .map [("type", "color"), ("value", "0xFF8800cc")])])]

/-- What is read from it. -/
def cardThumbnail (width : Value) : Thumbnail where
  width := width
  source := .custom (.color "0xFF8800cc")

/-- A document with one scene and a thumbnail on a card. -/
def cardFilm (width : Value) : Value :=
  .map [("scenes", .list [.map [("id", "sky"), ("duration", 4)]]), ("thumbnail", cardValue width)]

/-- What is read from it. -/
def carded (width : Value) : Specification where
  scenes := [{ id := "sky", duration := 4 }]
  thumbnail := cardThumbnail width

/-- Any width above zero is read. -/
theorem ofValue_cardFilm {width : Int} (h : 0 < width) :
    ofValue (cardFilm (.int width)) = .ok (carded (.int width)) := by
  have hwidth : Spec.Field.integer .aboveZero (.field (.root "thumbnail") "width") (.int width) =
      .ok (.int width) := by
    have hrange : Spec.Field.Range.aboveZero.brokenBy (.ofInt width) = none := by
      simp [Spec.Field.Range.brokenBy, Spec.Field.Range.aboveZero, Extended.ofInt, Extended.le, h]
    rw [Spec.Field.integer, Spec.Field.number_ok_iff.2 ⟨rfl, _, rfl, hrange⟩]
    rfl
  have hthumbnail : Thumbnail.ofValue (cardValue (.int width)) = .ok (cardThumbnail (.int width)) := by
    have hcard : Thumbnail.ofValue (cardValue (.int width)) =
        (Spec.Field.integer .aboveZero (.field (.root "thumbnail") "width") (.int width)).bind
          fun v => .ok (cardThumbnail v) := by
      with_unfolding_all rfl
    rw [hcard, hwidth]
    rfl
  have hfilm : ofValue (cardFilm (.int width)) =
      (Thumbnail.ofValue (cardValue (.int width))).bind fun t => .ok { carded (.int width) with
        thumbnail := t } := by
    with_unfolding_all rfl
  rw [hfilm, hthumbnail]
  rfl

/-- Its color has only ASCII characters. -/
theorem ascii_cardFilm : ∀ c ∈ "0xFF8800cc".toList, c.toNat < 128 ∧ c ≠ '\n' := by
  have hall : "0xFF8800cc".toList.all (fun c => c.toNat < 128 ∧ c ≠ '\n') = true := by decide
  exact fun c hc => of_decide_eq_true (List.all_eq_true.1 hall c hc)

/-- A color with an opacity, in two spellings. -/
theorem card_of_cardFilm :
    let w : Workspace := { folder := ["job"] }
    let card := some (Content.picture 640 720 ⟨255, 136, 0⟩)
    ofValue (cardFilm 640) = .ok (carded 640) ∧
    (∀ c ∈ "0xFF8800cc".toList, c.toNat < 128 ∧ c ≠ '\n') ∧ w.Takes (cardPath "still.jpg") ∧
    w.holds 640 720 = true ∧
    (((carded 640).planThumbnail none "still.jpg" "" "absolute").after w).get?
      ["job", "still_bg.png"] = card ∧
    (drawCard "still_bg.png" "#ff8800CC" 640 720).result w = .ok "still_bg.png" ∧
    ((drawCard "still_bg.png" "#ff8800CC" 640 720).after w).get? ["job", "still_bg.png"]
      = card := by
  intro w card
  have hread : ofValue (cardFilm 640) = .ok (carded 640) := ofValue_cardFilm (by decide)
  have htakes : w.Takes (cardPath "still.jpg") := ⟨["job", "still_bg.png"], by decide, by decide⟩
  have hholds : w.holds 640 720 = true := by decide
  obtain ⟨W, H, rgb, ⟨-, hW⟩, ⟨-, hH⟩, hcolor, hspellings, hplan⟩ :=
    card_shows_color hread rfl ascii_cardFilm
  obtain rfl : 640 = W := by cases hW; rfl
  obtain rfl : 720 = H := by cases hH; rfl
  have hrgb : Color.rgb? (Color.forCard "0xFF8800cc") = some ⟨255, 136, 0⟩ := by decide +kernel
  obtain rfl := Option.some.inj (hcolor.rgb?_forCard.symm.trans hrgb)
  have hspelling : Color.IsDocumented "#ff8800CC" :=
    .inl ⟨['#'], "ff8800CC".toList, by decide, by decide,
      fun c hc => Color.isHexDigit_iff.1 (List.all_eq_true.1 (by decide) c hc), by decide⟩
  have hthree : tens 3 ≤ tens digitLimit := tens_le_tens (by decide)
  have hshort : 640 < tens digitLimit ∧ 720 < tens digitLimit :=
    ⟨(by decide : 640 < tens 3).trans_le hthree, (by decide : 720 < tens 3).trans_le hthree⟩
  have hdraws := hspellings "#ff8800CC" hspelling (by decide) "still.jpg" w htakes hholds
  exact ⟨hread, ascii_cardFilm, htakes, hholds,
    hplan rfl none "still.jpg" "" "absolute" w htakes hholds,
    hdraws.result.2 ⟨hshort, .inr (by decide)⟩, hdraws.file⟩

/-- The card of a side with one digit more than an integer is written with is drawn, and the step
that draws it fails, where pictures of any size can be made. -/
theorem wide_card_fails :
    let w : Workspace := { folder := ["job"], longestSide := none }
    let wide : Nat := 10 ^ 4300
    ofValue (cardFilm (.int wide)) = .ok (carded (.int wide)) ∧
    (∀ c ∈ "0xFF8800cc".toList, c.toNat < 128 ∧ c ≠ '\n') ∧ w.Takes (cardPath "still.jpg") ∧
    w.holds wide 720 = true ∧
    (drawCard (cardPath "still.jpg") "0xFF8800cc" (.int wide) 720).result w
      = .error .valueUnsuited ∧
    ((carded (.int wide)).planThumbnail none "still.jpg" "" "absolute").result w
      = .error .valueUnsuited := by
  intro w wide
  have hread : ofValue (cardFilm (.int wide)) = .ok (carded (.int wide)) :=
    ofValue_cardFilm (by exact_mod_cast Nat.pow_pos (by decide))
  have htakes : w.Takes (cardPath "still.jpg") := ⟨["job", "still_bg.png"], by decide, by decide⟩
  exact ⟨hread, ascii_cardFilm, htakes, rfl, by decide +kernel, by decide +kernel⟩

end Specification

end Storyboard
