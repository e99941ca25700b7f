import Storyboard.Fault
import Storyboard.Text.Case
import Storyboard.Text.Digit

/-!
# Storyboard.Program.Arguments

The command line.  An option has a letter and a name.  A name may be shortened as long as
one option is meant, and takes its value as the next word or after an equals sign.  Letters
that take no value may be joined behind one dash, and the value of the last letter may
follow it directly.  An equals sign behind the first letter is left out, so `-q=p` is `-qp`
and `-o=a.mp4` is `-oa.mp4`; further on it belongs to a value.  Of an option that is given
twice the last value counts.

The line is read from left to right.  The first word that asks for help, or that cannot
be understood, decides, and of joined letters none counts before all are understood.  A
word that belongs to no option, and a missing specification, are only noticed at the end.
A name that may mean two options is noticed before all else.
-/

namespace Storyboard.Program

open Text

/-- What an option is about. -/
inductive Topic
  | help
  | spec
  | baseFolder
  | video
  | thumbnail
  | sceneTime
  | record
  | summary
  | check
  | plan
  | anchor
  | quiet
  deriving DecidableEq, Repr

/-- An option. -/
structure Switch where
  topic : Topic
  letter : Char
  name : String
  takesValue : Bool
  deriving DecidableEq, Repr

/-- All options. -/
def switches : List Switch :=
  [⟨.help, 'h', "help", false⟩,
   ⟨.spec, 'y', "yaml", true⟩,
   ⟨.baseFolder, 'b', "base-dir", true⟩,
   ⟨.video, 'o', "output", true⟩,
   ⟨.thumbnail, 't', "thumbnail", true⟩,
   ⟨.sceneTime, 'r', "scene-relative-thumbnail", false⟩,
   ⟨.record, 'm', "meta", true⟩,
   ⟨.summary, 'i', "info", false⟩,
   ⟨.check, 'n', "dry-run", false⟩,
   ⟨.plan, 'p', "dump-plan", false⟩,
   ⟨.anchor, 'f', "fade-out-anchor", true⟩,
   ⟨.quiet, 'q', "quiet", false⟩]

/-- Why the command line leads to no run. -/
inductive Stop
  /-- Help was asked for. -/
  | help
  /-- The command line cannot be understood. -/
  | misuse
  deriving DecidableEq, Repr

/-- The exit status of a stop. -/
def Stop.status : Stop → Nat
  | .help => 0
  | .misuse => 2

/-- What a word of the command line is. -/
inductive Word
  /-- A word that can only be a value. -/
  | plain (s : String)
  /-- A word that looks like an option but names none. -/
  | unknown
  /-- An option of its own, with the value after an equals sign if there is one. -/
  | named (switch : Switch) (value : Option (List Char))
  /-- An option by its letter, and what is joined to it. -/
  | lettered (switch : Switch) (joined : List Char)
  deriving DecidableEq, Repr

namespace Word

/-- Whether a text is written like a number below zero. -/
def isNegative (cs : List Char) : Bool :=
  let isNumeral (c : Char) := (decimalValue? c).isSome
  let cs := if cs.getLast? = some '\n' then cs.dropLast else cs
  match cs with
  | '-' :: rest =>
    match rest.dropWhile isNumeral with
    | [] => !rest.isEmpty
    | '.' :: places => !places.isEmpty && places.all isNumeral
    | _ => false
  | _ => false

/-- A word that starts with a dash but is no option: a number, or a text with a space in
it, is a value. -/
def ofOther (cs : List Char) : Word :=
  if isNegative cs || cs.contains ' ' then .plain (String.ofList cs) else .unknown

/-- The value after an equals sign, in what follows a name. -/
def afterEquals (cs : List Char) : Option (List Char) :=
  match cs.dropWhile (· ≠ '=') with
  | _ :: value => some value
  | [] => none

/-- The word of an option's letter and what is joined to it.  What follows an equals sign is
joined as well, but there it may be an empty value. -/
def ofLetter (o : Switch) : List Char → Word
  | '=' :: joined =>
    if o.takesValue || joined.isEmpty then .named o (some joined) else .lettered o joined
  | joined => .lettered o joined

/-- The word of a text. -/
def ofText (s : String) : Except Stop Word :=
  match s.toList with
  | '-' :: '-' :: cs =>
    let start := String.ofList (cs.takeWhile (· ≠ '='))
    match switches.find? (fun o => o.name == start) with
    | some o => .ok (.named o (afterEquals cs))
    | none =>
      match switches.filter (fun o => startsWith o.name start) with
      | [] => .ok (ofOther s.toList)
      | [o] => .ok (.named o (afterEquals cs))
      | _ => .error .misuse
  | '-' :: c :: joined =>
    match switches.find? (fun o => o.letter == c) with
    | some o => .ok (ofLetter o joined)
    | none => .ok (ofOther s.toList)
  | _ => .ok (.plain s)

end Word

/-- The value of an option; two dashes as a value stand for nothing at all. -/
inductive Given
  | text (s : String)
  | nothing
  deriving DecidableEq, Repr

namespace Given

/-- The value that characters stand for. -/
def ofChars (cs : List Char) : Given :=
  if cs = ['-', '-'] then .nothing else .text (String.ofList cs)

/-- The text of a value, empty if there is nothing. -/
def textOrEmpty : Given → String
  | .text s => s
  | .nothing => ""

/-- The text of a value where there has to be one. -/
def required : Given → Except Fault String
  | .text s => .ok s
  | .nothing => .error .textMissing

end Given

/-- What a command line asks for. -/
structure Arguments where
  spec : Option Given := none
  baseFolder : Option Given := none
  video : Option String := none
  thumbnail : Option Given := none
  sceneTime : Bool := false
  record : Option Given := none
  summary : Bool := false
  check : Bool := false
  plan : Bool := false
  anchor : String := "start"
  quiet : Bool := false
  /-- Whether there was a word that belongs to no option. -/
  stray : Bool := false
  deriving DecidableEq, Repr

/-- The words that an anchor can be. -/
def anchors : List String := ["start", "end"]

namespace Arguments

/-- The effect of an option without a value. -/
def setFlag (a : Arguments) : Topic → Except Stop Arguments
  | .help => .error .help
  | .sceneTime => .ok { a with sceneTime := true }
  | .summary => .ok { a with summary := true }
  | .check => .ok { a with check := true }
  | .plan => .ok { a with plan := true }
  | .quiet => .ok { a with quiet := true }
  | _ => .error .misuse

/-- The effect of an option with a value. -/
def setValue (a : Arguments) (value : Given) : Topic → Except Stop Arguments
  | .spec => .ok { a with spec := some value }
  | .baseFolder => .ok { a with baseFolder := some value }
  | .video => .ok { a with video := some value.textOrEmpty }
  | .thumbnail => .ok { a with thumbnail := some value }
  | .record => .ok { a with record := some value }
  | .anchor =>
    if value = .nothing ∨ value.textOrEmpty ∈ anchors then
      .ok { a with anchor := value.textOrEmpty }
    else .error .misuse
  | _ => .error .misuse

/-- What letters joined behind one dash come to. -/
structure Cluster where
  /-- The options without a value, in order. -/
  flags : List Topic
  /-- The option with a value that comes last, and the value joined to it if any. -/
  last : Option (Topic × Option Given)
  deriving DecidableEq, Repr

/-- The cluster of an option and what is joined to it.  To an option without a value
nothing but further letters can be joined. -/
def cluster (o : Switch) : List Char → Except Stop Cluster
  | [] => .ok (if o.takesValue then ⟨[], some (o.topic, none)⟩ else ⟨[o.topic], none⟩)
  | c :: joined =>
    if o.takesValue then .ok ⟨[], some (o.topic, some (.ofChars (c :: joined)))⟩
    else
      match switches.find? (fun o => o.letter == c) with
      | none => .error .misuse
      | some next => do
        let more ← cluster next joined
        return { more with flags := o.topic :: more.flags }

/-- The effect of words.  An option that still lacks its value takes the next word. -/
def take (a : Arguments) : List Word → Except Stop Arguments
  | [] => .ok a
  | .plain _ :: rest => take { a with stray := true } rest
  | .unknown :: rest => take { a with stray := true } rest
  | .named o (some value) :: rest =>
    if o.takesValue then do take (← a.setValue (.ofChars value) o.topic) rest
    else .error .misuse
  | .named o none :: rest =>
    if o.takesValue then
      match rest with
      | .plain s :: rest => do take (← a.setValue (.text s) o.topic) rest
      | _ => .error .misuse
    else do take (← a.setFlag o.topic) rest
  | .lettered o joined :: rest => do
    let c ← cluster o joined
    match c.last, rest with
    | none, rest => take (← c.flags.foldlM setFlag a) rest
    | some (topic, some value), rest =>
      take (← (← c.flags.foldlM setFlag a).setValue value topic) rest
    | some (topic, none), .plain s :: rest =>
      take (← (← c.flags.foldlM setFlag a).setValue (.text s) topic) rest
    | some (_, none), _ => .error .misuse

/-- The arguments of a command line.  After two dashes alone there are no options any
more, and there is nothing else that could be meant. -/
def read (words : List String) : Except Stop Arguments := do
  let front := words.takeWhile (· ≠ "--")
  let a ← take {} (← front.mapM Word.ofText)
  if a.stray || front.length < words.length || a.spec.isNone then throw .misuse
  return a

end Arguments

end Storyboard.Program
