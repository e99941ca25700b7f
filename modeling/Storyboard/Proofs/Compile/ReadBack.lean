import Storyboard.Proofs.Compile.Kept
import Storyboard.Proofs.Compile.Names
import Storyboard.Proofs.Compile.Reference
import Storyboard.Proofs.Graph.ReadBack

/-!
# Storyboard.Proofs.Compile.ReadBack

When the text of a compiled graph is read back as the graph.  Content, colors and numbers of
an accepted specification never get in the way, and neither do the pads.  The names of fonts
do: their separators are written as they are, and end a filter, a statement or the name of a
pad.

* `Specification.readStatements_compile_iff` — a compiled graph is read back exactly if there
  is no separator in the name of a font.
-/

namespace Storyboard.Specification

open Storyboard.Graph

variable {spec : Specification} {base anchor : String} {g : Graph}

/-- The names of the fonts of the texts over the scenes. -/
def fonts (spec : Specification) : List String :=
  spec.scenes.flatMap fun scene => scene.layers.filterMap fun
    | .text l => some l.style.font
    | _ => none

theorem mem_fonts {font : String} :
    font ∈ spec.fonts ↔
      ∃ scene ∈ spec.scenes, ∃ l, .text l ∈ scene.layers ∧ l.style.font = font := by
  simp only [fonts, List.mem_flatMap, List.mem_filterMap]
  constructor
  · rintro ⟨scene, hscene, layer, hlayer, hfont⟩
    cases layer with
    | text l => exact ⟨scene, hscene, l, hlayer, Option.some.inj hfont⟩
    | _ => exact absurd hfont (by simp)
  · rintro ⟨scene, hscene, l, hlayer, rfl⟩
    exact ⟨scene, hscene, .text l, hlayer, rfl⟩

/-- The filters of a compiled graph are closed, and they are whole exactly if the names of the
fonts have no separators. -/
theorem isWhole_filters_iff (hspec : spec.Accepted) (hbase : IsFree base.toList)
    (h : spec.compile base anchor = .ok g) :
    (∀ n ∈ g.nodes, ∀ f ∈ n.filters, IsClosed f.text.toList) ∧
      ((∀ n ∈ g.nodes, ∀ f ∈ n.filters, IsWhole f.text.toList) ↔
        ∀ font ∈ spec.fonts, IsFree font.toList) := by
  -- a text layer is accepted, and is drawn by a filter that is whole as far as its font is free
  have htext {scene : Scene} {l : TextLayer} {f : Filter} (hscene : scene ∈ spec.scenes)
      (hl : .text l ∈ scene.layers) (hf : l.filter base = .ok f) :
      IsClosed f.text.toList ∧ (IsWhole f.text.toList ↔ IsFree l.style.font.toList) := by
    cases (hspec.scene scene hscene).layers _ hl with
    | text hlayer => exact TextLayer.isWhole_filter_iff hlayer hbase hf
  constructor
  · intro n hn f hf
    rcases (origin_of_mem h hn).kept_or_text hspec with hkept | ⟨scene, hscene, l, f', hl, hf', hn⟩
    · exact (hkept f hf).1
    · rw [hn, List.mem_singleton] at hf
      exact hf ▸ (htext hscene hl hf').1
  constructor
  · intro hwhole font hfont
    obtain ⟨scene, hscene, l, hl, rfl⟩ := mem_fonts.1 hfont
    obtain ⟨i, j, under, s, s', made, hstep, hmade⟩ := layerStep_of_mem h hscene hl
    cases hstep with
    | text hf =>
      exact (htext hscene hl hf).2.1
        (hwhole _ (hmade _ List.mem_cons_self) _ List.mem_cons_self)
  · intro hfree n hn f hf
    rcases (origin_of_mem h hn).kept_or_text hspec with hkept | ⟨scene, hscene, l, f', hl, hf', hn⟩
    · exact (hkept f hf).2
    · rw [hn, List.mem_singleton] at hf
      exact hf ▸ (htext hscene hl hf').2.2 (hfree _ (mem_fonts.2 ⟨scene, hscene, l, hl, rfl⟩))

theorem readable_compile (hspec : spec.Accepted) (hbase : IsFree base.toList)
    (h : spec.compile base anchor = .ok g) : g.Readable where
  nodes := by
    obtain ⟨n, hn, -⟩ := List.mem_map.1 (mem_output_of_end h List.mem_cons_self)
    exact List.ne_nil_of_mem hn
  inputs n hn p hp := isSome_kind?_of_mem_inputs h hn hp
  output n hn := (isWritten_output h hn).1
  chain n hn := (origin_of_mem h hn).chain_ne_empty
  closed := (isWhole_filters_iff hspec hbase h).1

/-- The text of a compiled graph is read back as its statements exactly if there is no
separator in the name of a font. -/
theorem readStatements_compile_iff {data : Value} (hdata : ofValue data = .ok spec)
    (hbase : IsFree base.toList) (h : spec.compile base anchor = .ok g) :
    readStatements g.text = some (g.nodes.map Node.statement) ↔
      ∀ font ∈ spec.fonts, IsFree font.toList := by
  have hspec := accepted_of_ofValue hdata
  rw [readStatements_text_iff (readable_compile hspec hbase h)]
  exact (isWhole_filters_iff hspec hbase h).2

/-- A document with one scene, over which a text is drawn in a font. -/
def captionIn (font : String) : Value :=
  .map [("scenes", .list [.map [("id", "sky"), ("duration", 3),
    ("layers", .list [.map [("type", "text"), ("content", "[1], it's; so"),
      ("style", .map [("font", font)])]])]])]

theorem exists_graph_captionIn (font : String)
    (h : (ofValue (captionIn font)).toOption.map (fun spec =>
      (spec.fonts, (spec.compile "/job" "end").isOk)) = some ([font], true)) :
    ∃ spec g, ofValue (captionIn font) = .ok spec ∧ spec.fonts = [font] ∧
      spec.compile "/job" "end" = .ok g := by
  cases hdata : ofValue (captionIn font) with
  | error e =>
    rw [hdata] at h
    cases h
  | ok spec =>
    rw [hdata] at h
    obtain ⟨hfonts, hok⟩ := Prod.mk.inj (Option.some.inj h)
    obtain ⟨g, hg⟩ := exists_of_isOk hok
    exact ⟨spec, g, rfl, hfonts, hg⟩

theorem readStatements_captionIn :
    ∃ spec g, ofValue (captionIn "fonts/Sans.ttf") = .ok spec ∧
      spec.compile "/job" "end" = .ok g ∧
      readStatements g.text = some (g.nodes.map Node.statement) := by
  obtain ⟨spec, g, hdata, hfonts, hg⟩ :=
    exists_graph_captionIn "fonts/Sans.ttf" (by decide +kernel)
  refine ⟨spec, g, hdata, hg, (readStatements_compile_iff hdata (by decide) hg).2 ?_⟩
  rw [hfonts]
  decide

/-- A font whose name has a comma in it makes two filters of one. -/
theorem readStatements_captionIn_comma :
    ∃ spec g, ofValue (captionIn "Arial,Bold") = .ok spec ∧ spec.compile "/job" "end" = .ok g ∧
      readStatements g.text ≠ some (g.nodes.map Node.statement) := by
  obtain ⟨spec, g, hdata, hfonts, hg⟩ :=
    exists_graph_captionIn "Arial,Bold" (by decide +kernel)
  have hspec := accepted_of_ofValue hdata
  have hbase : IsFree "/job".toList := by decide
  refine ⟨spec, g, hdata, hg, ?_⟩
  rw [ne_eq, readStatements_text_iff (readable_compile hspec hbase hg),
    (isWhole_filters_iff hspec hbase hg).2, hfonts]
  decide

end Storyboard.Specification
