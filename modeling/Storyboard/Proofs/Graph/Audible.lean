import Mathlib.Algebra.Order.Ring.Rat
import Storyboard.Compile.Sound
import Storyboard.Proofs.Graph.Footage

/-!
# Storyboard.Proofs.Graph.Audible

What the filters of a graph make of the sound of a file.  Some instants of the file are heard,
each at a time and with a gain; the filters cut the sound, let its clock start anew, change how
loud it is, and let it be heard later.  A ramp counts by the clock that it finds.

* `Filter.playback?_cut`, `Filter.playback?_fadeIn`, `Filter.playback?_fadeOut`,
  `Filter.playback?_delay` — what a filter makes of a sound, by the numbers in its text.
-/

namespace Storyboard

/-! ## sounds -/

/-- How a file is heard. -/
structure Playback where
  /-- The first instant of the file that is heard. -/
  first : ℚ := 0
  /-- The instant before which the file is heard, unless it is heard to its end. -/
  stop? : Option ℚ := none
  /-- How much later on the clock an instant is than in the file. -/
  shift : ℚ := 0
  /-- The gain of an instant of the file. -/
  gain : ℚ → ℚ := fun _ => 1

namespace Playback

/-- Whether an instant of the file is heard. -/
def Hears (p : Playback) (x : ℚ) : Prop := p.first ≤ x ∧ ∀ stop ∈ p.stop?, x < stop

/-- The time on the clock of an instant of the file. -/
def time (p : Playback) (x : ℚ) : ℚ := x + p.shift

/-- The sound from one time on and before another. -/
def cut (p : Playback) (start : ℚ) (stop? : Option ℚ) : Playback :=
  { p with
    first := max p.first (start - p.shift)
    stop? := p.stop?.merge min (stop?.map (· - p.shift)) }

/-- The sound with a clock that is at zero when it starts. -/
def fromZero (p : Playback) : Playback := { p with shift := -p.first }

/-- The sound with a gain that depends on the clock. -/
def amplify (p : Playback) (gain : ℚ → ℚ) : Playback :=
  { p with gain := fun x => p.gain x * gain (p.time x) }

/-- The sound, heard later. -/
def delay (p : Playback) (length : ℚ) : Playback := { p with shift := p.shift + length }

variable {p : Playback} {x start length : ℚ} {stop? : Option ℚ} {gain : ℚ → ℚ}

@[simp] theorem hears_amplify : (p.amplify gain).Hears x ↔ p.Hears x := Iff.rfl

@[simp] theorem hears_delay : (p.delay length).Hears x ↔ p.Hears x := Iff.rfl

@[simp] theorem time_amplify : (p.amplify gain).time x = p.time x := rfl

theorem time_delay : (p.delay length).time x = p.time x + length := (add_assoc ..).symm

theorem gain_amplify : (p.amplify gain).gain x = p.gain x * gain (p.time x) := rfl

@[simp] theorem gain_delay : (p.delay length).gain x = p.gain x := rfl

/-- The gain one changes nothing. -/
theorem amplify_one (h : ∀ t, gain t = 1) : p.amplify gain = p := by
  simp [amplify, h]

theorem delay_zero : p.delay 0 = p := by
  simp [delay]

end Playback

/-- How far a ramp has come that starts at a time and takes so long: from zero to one. -/
def ramp (start length t : ℚ) : ℚ := max 0 (min 1 ((t - start) / length))

/-! ## filters -/

namespace FilterOption

/-- The number that is the value of an option; one that is left out is none. -/
def optional? (name : String) (os : List FilterOption) : Option (Option ℚ) :=
  match value? name os with
  | none => some none
  | some text => (Numeral.read? text).map some

end FilterOption

namespace Filter

open FilterOption

/-- What a filter makes of how a file is heard, if it is known. -/
def playback? (p : Playback) : Filter → Option Playback
  | .call name os =>
    if name = "atrim" then do return p.cut ((← optional? "start" os).getD 0) (← optional? "end" os)
    else if name = "asetpts" then if positionals os = ["PTS-STARTPTS"] then p.fromZero else none
    else if name = "volume" then do
      let gain ← (positionals os).head? >>= Numeral.read?
      return p.amplify fun _ => gain
    else if name = "afade" then do
      let start := (← optional? "st" os).getD 0
      let length ← number? "d" os
      match value? "t" os with
      | some "in" => return p.amplify (ramp start length)
      | some "out" => return p.amplify fun t => 1 - ramp start length t
      | _ => none
    else if name = "adelay" then do
      let milliseconds ← number? "delays" os
      if value? "all" os = some "1" then p.delay (milliseconds / 1000) else none
    else if name = "anull" then p
    else none
  | .literal _ => none

variable {p : Playback} {text : String} {start stop length : Decimal} {q r : ℚ}

theorem playback?_cut (hstart : Numeral.Denotes start.shortText q)
    (hstop : Numeral.Denotes stop.shortText r) :
    (call "atrim" [time "start" start, time "end" stop]).playback? p
      = some (p.cut q (some r)) := by
  simp [playback?, optional?, time, Numeral.read?_of_denotes hstart, Numeral.read?_of_denotes hstop]

theorem playback?_cut_open (hstart : Numeral.Denotes start.shortText q) :
    (call "atrim" [time "start" start]).playback? p = some (p.cut q none) := by
  simp [playback?, optional?, time, Numeral.read?_of_denotes hstart]

theorem playback?_fromZero :
    (call "asetpts" [plain "PTS-STARTPTS"]).playback? p = some p.fromZero := rfl

theorem playback?_volume (h : Numeral.Denotes text q) :
    (call "volume" [plain text]).playback? p = some (p.amplify fun _ => q) := by
  simp [playback?, Numeral.read?_of_denotes h]

/-- A ramp without a start starts at zero. -/
theorem playback?_fadeIn (h : Numeral.Denotes length.shortText q) :
    (call "afade" [named "t" "in", time "d" length]).playback? p
      = some (p.amplify (ramp 0 q)) := by
  simp [playback?, optional?, time, Numeral.read?_of_denotes h]

theorem playback?_fadeOut (h : Numeral.Denotes length.shortText q)
    (hstart : Numeral.Denotes start.shortText r) :
    (call "afade" [named "t" "out", time "d" length, time "st" start]).playback? p
      = some (p.amplify fun t => 1 - ramp r q t) := by
  simp [playback?, optional?, time, Numeral.read?_of_denotes h, Numeral.read?_of_denotes hstart]

theorem playback?_delay (h : Numeral.Denotes text q) :
    (call "adelay" [named "delays" text, named "all" "1"]).playback? p
      = some (p.delay (q / 1000)) := by
  simp [playback?, Numeral.read?_of_denotes h]

theorem playback?_unchanged : AudioTrack.unchanged.playback? p = some p := rfl

end Filter

/-- What filters make of how a file is heard, one after another. -/
def playbackAfter? (fs : List Filter) (p : Playback) : Option Playback :=
  fs.foldlM (fun p f => f.playback? p) p

section

variable {fs gs : List Filter} {f g : Filter} {p q : Playback}

@[simp] theorem playbackAfter?_nil : playbackAfter? [] p = some p := rfl

@[simp] theorem playbackAfter?_singleton : playbackAfter? [f] p = f.playback? p := by
  simp [playbackAfter?]

theorem playbackAfter?_pair (h : f.playback? p = some q) :
    playbackAfter? [f, g] p = g.playback? q := by
  simp [playbackAfter?, h]

theorem playbackAfter?_append (h : playbackAfter? fs p = some q) :
    playbackAfter? (fs ++ gs) p = playbackAfter? gs q := by
  rw [playbackAfter?, List.foldlM_append, ← playbackAfter?, h]
  rfl

end

/-- How a file is heard by a statement that reads it from its start, as loud as it is. -/
def Node.playback? (n : Node) : Option Playback := playbackAfter? n.filters {}

end Storyboard
