import Mathlib.Data.List.Nodup
import Storyboard.Proofs.Compile.Names
import Storyboard.Proofs.Compile.Reference

/-!
# Storyboard.Proofs.Compile.WellFormed

What makes a graph one that can be run, said of the labels alone: no label is written
twice, a statement reads only labels that are there when its turn comes, everything that
is written is read once, but for the two ends, and a mix says how many pads it mixes.

* `Specification.wellFormed_compile` — every compiled graph is well-formed.
-/

namespace Storyboard

/-! ## how often a label is read -/

namespace Graph

/-- How often a label is read in a graph. -/
def uses (g : Graph) (label : String) : Nat :=
  ((g.nodes.flatMap Node.inputs).map Pad.label).count label

/-- A pad that statements write is read as often as it is closed. -/
theorem uses_eq_count {g : Graph} {p : Pad} (hp : p.IsWritten)
    (hkinds : ∀ n ∈ g.nodes, ∀ q ∈ n.inputs, q.kind?.isSome = true) :
    g.uses p.label = (g.nodes.flatMap Node.closed).count p := by
  have hclosed : g.nodes.flatMap Node.closed
      = (g.nodes.flatMap Node.inputs).filter fun q => !q.isInput :=
    List.filter_flatMap.symm
  have hlabels : ∀ q ∈ g.nodes.flatMap Node.inputs,
      (q.label == p.label) = true ↔ (q == p) = true := by
    intro q hq
    obtain ⟨n, hn, hqn⟩ := List.mem_flatMap.1 hq
    rw [beq_iff_eq, beq_iff_eq]
    exact ⟨Pad.label_injective (hkinds n hn q hqn) hp.1, congrArg Pad.label⟩
  rw [hclosed, List.count_filter (by rw [hp.2]; rfl), uses, List.count, List.countP_map]
  exact List.countP_congr hlabels

/-- What a graph has to be so that it can be run. -/
structure WellFormed (g : Graph) : Prop where
  /-- No label is written twice. -/
  distinct : (g.nodes.map fun n => n.output.label).Nodup
  /-- A label that is read is that of an input or is written before. -/
  earlier : ∀ before n after, g.nodes = before ++ n :: after → ∀ p ∈ n.inputs,
    (∃ (k : Nat) (stream : Stream), k < g.inputs.length ∧
      p.label = k.repr ++ ":" ++ stream.letter) ∨ ∃ m ∈ before, m.output.label = p.label
  /-- What is written is read once, but for the two ends. -/
  used_once : ∀ n ∈ g.nodes, n.output.label ≠ g.videoPad.label →
    n.output.label ≠ g.audioPad.label → g.uses n.output.label = 1
  /-- The ends are written, -/
  ends_written : (∃ n ∈ g.nodes, n.output.label = g.videoPad.label) ∧
    ∃ n ∈ g.nodes, n.output.label = g.audioPad.label
  /-- are two, -/
  ends_ne : g.videoPad.label ≠ g.audioPad.label
  /-- and are not read. -/
  ends_unused : g.uses g.videoPad.label = 0 ∧ g.uses g.audioPad.label = 0
  /-- A statement is found by the label that it writes. -/
  found : ∀ n ∈ g.nodes, g.node? n.output.label = some n
  /-- A mix says how many pads it reads. -/
  mixes : ∀ n ∈ g.nodes, ∀ f ∈ n.filters, f.name = "amix" → ∃ options,
    f = .call "amix" options ∧
      options.filter (fun o => o.name? == some "inputs") = [.named "inputs" n.inputs.length.repr]

/-- A statement is found by its label if no label is written twice. -/
theorem node?_of_nodup {g : Graph} (h : (g.nodes.map fun n => n.output.label).Nodup) {n : Node}
    (hn : n ∈ g.nodes) : g.node? n.output.label = some n := by
  obtain ⟨before, after, hsplit⟩ := List.append_of_mem hn
  rw [hsplit, List.map_append, List.map_cons, List.nodup_append] at h
  obtain ⟨-, -, hne⟩ := h
  rw [node?, List.find?_eq_some_iff_append]
  refine ⟨by simp, before, after, hsplit, ?_⟩
  intro m hm
  have hlabel : m.output.label ≠ n.output.label :=
    hne _ (List.mem_map_of_mem (f := fun n => n.output.label) hm) _ List.mem_cons_self
  simpa using hlabel

end Graph

namespace Specification

variable {spec : Specification} {base anchor : String} {g : Graph}

/-- The labels that a graph writes are as different as its pads. -/
theorem nodup_labels (h : spec.compile base anchor = .ok g) :
    (g.nodes.map fun n => n.output.label).Nodup := by
  have hnodup := (writes_compile h).nodup
  have hmap : (g.nodes.map fun n => n.output.label) = (g.nodes.map Node.output).map Pad.label := by
    rw [List.map_map]
    rfl
  rw [hmap]
  refine hnodup.map_on ?_
  intro p hp q hq
  exact Pad.label_injective ((writes_compile h).each p hp).1 ((writes_compile h).each q hq).1

/-- A pad that a graph writes is closed once, or is an end. -/
theorem count_closed (h : spec.compile base anchor = .ok g) {p : Pad}
    (hp : p ∈ g.nodes.map Node.output) :
    (g.nodes.flatMap Node.closed).count p + [g.videoPad, g.audioPad].count p = 1 := by
  have hperm := (wired_compile h).perm.count_eq p
  rw [List.nil_append, List.count_append] at hperm
  rw [← hperm]
  exact List.count_eq_one_of_mem (writes_compile h).nodup hp

theorem wellFormed_compile (h : spec.compile base anchor = .ok g) : g.WellFormed := by
  have hvideo : g.videoPad ∈ g.nodes.map Node.output := mem_output_of_end h (by simp)
  have haudio : g.audioPad ∈ g.nodes.map Node.output := mem_output_of_end h (by simp)
  have hwritten := (writes_compile h).each
  have huses {p : Pad} (hp : p ∈ g.nodes.map Node.output) :
      g.uses p.label = (g.nodes.flatMap Node.closed).count p :=
    Graph.uses_eq_count (hwritten p hp) fun n hn q hq => isSome_kind?_of_mem_inputs h hn hq
  have hcountVideo := count_closed h hvideo
  have hcountAudio := count_closed h haudio
  have hne : g.videoPad ≠ g.audioPad := by
    intro heq
    rw [heq, List.count_cons_self, List.count_cons_self] at hcountAudio
    omega
  constructor
  case distinct => exact nodup_labels h
  case earlier =>
    intro before n after hsplit p hp
    cases hinput : p.isInput with
    | true =>
      have hn : n ∈ g.nodes := by simp [hsplit]
      obtain ⟨k, r, hr, -, rfl⟩ := ends_of_input_mem h hn hp hinput
      refine .inl ⟨k, r.stream, ?_, rfl⟩
      rw [(registers_compile h).1, List.length_map]
      exact (List.getElem?_eq_some_iff.1 hr).1
    | false =>
      obtain ⟨m, hm, rfl⟩ := earlier_compile h hsplit hp hinput
      exact .inr ⟨m, hm, rfl⟩
  case used_once =>
    intro n hn hnvideo hnaudio
    have hmem : n.output ∈ g.nodes.map Node.output := List.mem_map_of_mem hn
    have hends : [g.videoPad, g.audioPad].count n.output = 0 := by
      rw [List.count_eq_zero]
      intro hend
      cases List.mem_pair.1 hend with
      | inl heq => exact hnvideo (congrArg Pad.label heq)
      | inr heq => exact hnaudio (congrArg Pad.label heq)
    have hcount := count_closed h hmem
    rw [huses hmem]
    omega
  case ends_written =>
    obtain ⟨n, hn, hvideo⟩ := List.mem_map.1 hvideo
    obtain ⟨m, hm, haudio⟩ := List.mem_map.1 haudio
    exact ⟨⟨n, hn, congrArg Pad.label hvideo⟩, m, hm, congrArg Pad.label haudio⟩
  case ends_ne =>
    intro hlabel
    exact hne (Pad.label_injective (hwritten _ hvideo).1 (hwritten _ haudio).1 hlabel)
  case ends_unused =>
    rw [huses hvideo, huses haudio]
    rw [List.count_cons_self] at hcountVideo
    rw [List.count_cons_of_ne hne, List.count_cons_self] at hcountAudio
    omega
  case found => exact fun n hn => Graph.node?_of_nodup (nodup_labels h) hn
  case mixes =>
    intro n hn f hf hname
    rcases (origin_of_mem h hn).isPlain_or_mix with hplain | ⟨pads, rfl⟩
    · exact absurd hname (hplain f hf).name_ne_amix
    · obtain rfl := List.mem_singleton.1 hf
      exact ⟨_, rfl, rfl⟩

/-- Two scenes with layers of every kind, and two tracks to mix. -/
def fullLayers : Specification where
  scenes := [
    { id := "sky", duration := 3, background := .image "sky.png", transition := { duration := 1 },
      layers := [.text { content := "hi" }, .image { src := "logo.png" },
        .video { src := "/clip.mp4" }, .shape { opacity := 1 }] },
    { id := "sea", duration := 2, background := .gradient ["#0000FF", "#00FFFF"] "vertical",
      layers := [.image { src := "logo.png" }] }]
  audio := { tracks := [{ src := "song.mp3" }, { src := "voice.wav" }] }

theorem wellFormed_fullLayers :
    ∃ g, fullLayers.compile "/media" "end" = .ok g ∧ g.WellFormed := by
  have hok : (fullLayers.compile "/media" "end").isOk = true := by decide +kernel
  obtain ⟨g, hg⟩ := exists_of_isOk hok
  exact ⟨g, hg, wellFormed_compile hg⟩

end Specification

end Storyboard
