import Storyboard.Number.Integer

/-!
# Storyboard.Graph.Pad

The pads that the statements of a graph read and write.  A pad is either a stream of an
input file or what a statement writes; the label of the latter follows from the scene,
layer or track that it belongs to, so a specification always gives the same labels.
-/

namespace Storyboard

/-- The streams of an input file. -/
inductive Stream
  | video
  | audio
  deriving DecidableEq, Repr

/-- The letter of a stream. -/
def Stream.letter : Stream → String
  | .video => "v"
  | .audio => "a"

/-- A pad of a graph. -/
inductive Pad
  /-- A stream of an input file. -/
  | input (index : Int) (stream : Stream)
  /-- The background of a scene. -/
  | background (scene : Int)
  /-- A scene with its layers up to and with one of them. -/
  | layer (scene layer : Int)
  /-- The image or clip of a layer, before it is laid over the scene. -/
  | media (scene layer : Int)
  /-- The scenes up to and with one of them, joined. -/
  | transition (scene : Int)
  /-- An audio track. -/
  | track (index : Int)
  /-- All audio tracks together. -/
  | mix
  /-- What is heard where there is no track. -/
  | silence
  /-- A pad that is known by its label alone. -/
  | named (label : String)
  deriving DecidableEq, Repr

namespace Pad

/-- The label of a pad. -/
def label : Pad → String
  | .input k stream => k.repr ++ ":" ++ stream.letter
  | .background i => "scene" ++ i.repr ++ "_bg"
  | .layer i j => "scene" ++ i.repr ++ "_layer" ++ j.repr
  | .media i j => "scene" ++ i.repr ++ "_media" ++ j.repr
  | .transition i => "xfade" ++ i.repr
  | .track k => "audio" ++ k.repr
  | .mix => "audioMix"
  | .silence => "audioSilence"
  | .named text => text

open Text Number

/-- The index of the input that a label names: the number before the first colon, if
nothing but digits stands there.  A digit that takes part in no number is a fault. -/
def inputIndex? (label : String) : Except Fault (Option Nat) :=
  let head := label.toList.takeWhile (· ≠ ':')
  if head.isEmpty || !head.all isDigit then .ok none
  else
    match readNatural? head with
    | some i => .ok (some i)
    | none => .error .valueUnsuited

end Pad

end Storyboard
