import Storyboard.Command
import Storyboard.Proofs.Compile.Reference
import Storyboard.Proofs.Graph.Index

/-!
# Storyboard.Proofs.Compile.InputFiles

What the index of an input means.  A compiled graph, the specification that it comes from
and the command line that renders it agree on it: the `k`-th file that the specification
refers to is the `k`-th input of the graph, the file that the one statement with that index
reads, and the `k`-th file that the command line names.

* `Specification.inputFiles_compile` — every compiled graph agrees with its specification.
-/

namespace Storyboard

open Number

/-! ## the command line -/

namespace Value

/-- An integer with no more digits than may be written. -/
def IsInteger (v : Value) : Prop := ∃ i : Int, v = .int i ∧ i.natAbs < tens digitLimit

/-- An integer, a floating-point number or a quotient that can be written. -/
def IsRate (v : Value) : Prop :=
  (∃ i : Int, v = .int i) ∨ (∃ x : Double, v = .float x) ∨
    ∃ q : Rat, v = .ratio q ∧ q.num.natAbs < tens digitLimit ∧ q.den < tens digitLimit

theorem IsInteger.plainText {v : Value} (h : v.IsInteger) : ∃ t, v.plainText = .ok t := by
  obtain ⟨i, rfl, hi⟩ := h
  exact ⟨i.repr, by rw [plainText_int, integerText_of_short hi]⟩

theorem IsRate.rateText {v : Value} (h : v.IsRate) : ∃ t, v.rateText = .ok t := by
  obtain ⟨i, rfl⟩ | ⟨x, rfl⟩ | ⟨q, rfl, hnum, hden⟩ := h
  · exact ⟨_, rfl⟩
  · exact ⟨_, numberText_float x⟩
  · exact exists_ratioText hnum hden

end Value

/-- The numbers of an output are of the kinds that its fields are meant for. -/
structure Output.HasNumbers (output : Output) : Prop where
  width : output.width.IsInteger
  height : output.height.IsInteger
  crf : output.crf.IsInteger
  sampleRate : output.sampleRate.IsInteger
  fps : output.fps.IsRate

namespace Graph

variable {g : Graph} {output : Output} {outfile : String}

/-- The part of a command line that names the input files. -/
def inputArguments (g : Graph) : List String := g.inputs.flatMap fun path => ["-i", path]

/-- A command line starts with the inputs, in their order, and the text of the graph. -/
theorem renderCommand_forms {arguments : List String}
    (h : g.renderCommand output outfile = .ok arguments) :
    ∃ rest, arguments =
      ["ffmpeg", "-y"] ++ g.inputArguments ++ "-filter_complex" :: g.text :: rest := by
  obtain ⟨crf, -, h⟩ := bind_eq_ok.1 h
  obtain ⟨sampleRate, -, h⟩ := bind_eq_ok.1 h
  obtain ⟨rate, -, h⟩ := bind_eq_ok.1 h
  obtain ⟨size, -, h⟩ := bind_eq_ok.1 h
  obtain rfl := pure_eq_ok.1 h
  simp only [List.append_assoc]
  exact ⟨_, rfl⟩

/-- With numbers of the kinds that are meant there is a command line. -/
theorem exists_renderCommand (g : Graph) (h : output.HasNumbers) (outfile : String) :
    ∃ arguments, g.renderCommand output outfile = .ok arguments := by
  obtain ⟨crf, hcrf⟩ := h.crf.plainText
  obtain ⟨sampleRate, hsampleRate⟩ := h.sampleRate.plainText
  obtain ⟨rate, hrate⟩ := h.fps.rateText
  obtain ⟨width, hwidth⟩ := h.width.plainText
  obtain ⟨height, hheight⟩ := h.height.plainText
  simp only [renderCommand, Command.sizeText, hcrf, hsampleRate, hrate, hwidth, hheight]
  exact ⟨_, rfl⟩

end Graph

/-! ## agreement -/

/-- One of the labels that a statement reads names input `k`. -/
def Node.NamesInput (n : Node) (k : Nat) : Prop :=
  ∃ p ∈ n.inputs, ∃ stream : Stream, p.label = k.repr ++ ":" ++ stream.letter

/-- The index of an input means the same file for a specification, its graph and the command
line. -/
structure Graph.HasInputFiles (g : Graph) (spec : Specification) (base : String) : Prop where
  /-- The inputs are the files that the specification refers to, in its order. -/
  inputs : g.inputs = spec.references.map fun r => Path.resolve base r.src
  /-- One statement alone names input `k`: it reads the stream that the reference is for and
  writes the pad of the element that makes the reference. -/
  named_once : ∀ (k : Nat) (r : Reference), spec.references[k]? = some r →
    ∃ before n after, g.nodes = before ++ n :: after ∧
      n.inputs.map Pad.label = [k.repr ++ ":" ++ r.stream.letter] ∧
      n.output.label = r.pad.label ∧ ∀ m ∈ before ++ after, ¬ m.NamesInput k
  /-- No statement names an input that there is not. -/
  named_lt : ∀ n ∈ g.nodes, ∀ k, n.NamesInput k → k < g.inputs.length
  /-- The index is read off the label, if it has no more digits than may be read. -/
  index_input : ∀ (k : Nat) (r : Reference), spec.references[k]? = some r → k < tens digitLimit →
    Pad.inputIndex? (k.repr ++ ":" ++ r.stream.letter) = .ok (some k)
  /-- No index is read off another label. -/
  index_other : ∀ n ∈ g.nodes, ∀ p ∈ n.inputs,
    (∀ (k : Nat) (stream : Stream), p.label ≠ k.repr ++ ":" ++ stream.letter) →
    Pad.inputIndex? p.label = .ok none
  /-- The command line names the inputs in their order, and then the text of the graph. -/
  command : ∀ output outfile arguments, g.renderCommand output outfile = .ok arguments →
    ∃ rest, arguments =
      ["ffmpeg", "-y"] ++ g.inputArguments ++ "-filter_complex" :: g.text :: rest
  /-- There is a command line for every output with numbers of the kinds that are meant. -/
  command_exists : ∀ output outfile, output.HasNumbers →
    ∃ arguments, g.renderCommand output outfile = .ok arguments

namespace Specification

variable {spec : Specification} {base anchor : String} {g : Graph}

/-- A statement names an input by reading one of its streams. -/
theorem exists_of_namesInput (h : spec.compile base anchor = .ok g) {n : Node} (hn : n ∈ g.nodes)
    {k : Nat} (hk : n.NamesInput k) :
    ∃ r, spec.references[k]? = some r ∧ n.ends = r.ends k := by
  obtain ⟨p, hp, stream, hlabel⟩ := hk
  obtain rfl : p = .input k stream :=
    Pad.label_injective (isSome_kind?_of_mem_inputs h hn hp) rfl hlabel
  obtain ⟨j, r, hr, hends, hpad⟩ := ends_of_input_mem h hn hp rfl
  obtain ⟨hj, -⟩ := Pad.input.inj hpad
  obtain rfl : k = j := Int.ofNat.inj hj
  exact ⟨r, hr, hends⟩

theorem inputFiles_compile (h : spec.compile base anchor = .ok g) : g.HasInputFiles spec base where
  inputs := (registers_compile h).1
  named_once k r hr := by
    obtain ⟨before, n, after, hsplit, hends, hothers⟩ := exists_of_reference h hr
    have hinputs : n.inputs = [.input k r.stream] := congrArg Prod.fst hends
    have houtput : n.output = r.pad := congrArg Prod.snd hends
    refine ⟨before, n, after, hsplit, by rw [hinputs]; rfl, by rw [houtput], ?_⟩
    intro m hm hnames
    have hmem : m ∈ g.nodes := by
      rw [hsplit]
      simp only [List.mem_append, List.mem_cons] at hm ⊢
      tauto
    obtain ⟨r', -, hends'⟩ := exists_of_namesInput h hmem hnames
    have hinputs' : m.inputs = [.input k r'.stream] := congrArg Prod.fst hends'
    obtain ⟨j, r'', hj, hends''⟩ := hothers m hm (by rw [Node.readsFile, hinputs']; rfl)
    -- the same statement cannot have the ends of two numbers
    have hinputs'' : m.inputs = [.input j r''.stream] := congrArg Prod.fst hends''
    rw [hinputs'] at hinputs''
    obtain ⟨hkj, -⟩ := Pad.input.inj (List.cons.inj hinputs'').1
    exact hj (Int.ofNat.inj hkj).symm
  named_lt n hn k hnames := by
    obtain ⟨r, hr, -⟩ := exists_of_namesInput h hn hnames
    rw [(registers_compile h).1, List.length_map]
    exact (List.getElem?_eq_some_iff.1 hr).1
  index_input k r hr hk := Pad.inputIndex?_input hk r.stream
  index_other n hn p hp hother := by
    refine Pad.inputIndex?_of_isInput_eq_false (isSome_kind?_of_mem_inputs h hn hp) ?_
    cases hinput : p.isInput with
    | false => rfl
    | true =>
      obtain ⟨k, r, -, -, rfl⟩ := ends_of_input_mem h hn hp hinput
      exact absurd rfl (hother k r.stream)
  command output outfile arguments hcommand := g.renderCommand_forms hcommand
  command_exists output outfile hnumbers := g.exists_renderCommand hnumbers outfile

/-- A specification whose files stand in backgrounds, layers and tracks, some of them twice. -/
def mixedFiles : Specification where
  scenes := [
    { id := "sky", duration := 3, background := .image "sky.png", transition := { duration := 1 },
      layers := [.text { content := "hi" }, .image { src := "logo.png" },
        .video { src := "/clip.mp4" }] },
    { id := "sea", duration := 2, background := .video "sea.mp4" {},
      layers := [.image { src := "logo.png" }] }]
  audio := { tracks := [{ src := "song.mp3" }, { src := "voice.wav" }] }

theorem inputFiles_mixedFiles :
    ∃ g, mixedFiles.compile "/media" "start" = .ok g ∧ g.HasInputFiles mixedFiles "/media" ∧
      g.inputs = ["/media/sky.png", "/media/logo.png", "/clip.mp4", "/media/sea.mp4",
        "/media/logo.png", "/media/song.mp3", "/media/voice.wav"] := by
  have hok : (mixedFiles.compile "/media" "start").isOk = true := by decide
  obtain ⟨g, hg⟩ := exists_of_isOk hok
  have hfiles : g.HasInputFiles mixedFiles "/media" := inputFiles_compile hg
  refine ⟨g, hg, hfiles, ?_⟩
  rw [hfiles.inputs]
  decide

end Specification

end Storyboard
