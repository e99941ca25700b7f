import Storyboard.Number.Double.Read
import Storyboard.Number.Integer
import Storyboard.Text.Base64
import Storyboard.Text.Case
import Storyboard.Value
import Storyboard.Yaml.Kind
import Storyboard.Yaml.Token

/-!
# Storyboard.Yaml.Scalar.Value

What a scalar denotes once its kind is known.  A tag can ask for a kind whose form the
text does not have; so reading may fail, and goes somewhat beyond the forms of plain
scalars.
-/

namespace Storyboard.Yaml

open Text Number

namespace Kind

/-- What tells a base in front of a number, and the number after it. -/
def dropBase (letters : List Char) : List Char → List Char
  | '0' :: c :: cs => if letters.contains c then cs else '0' :: c :: cs
  | cs => cs

/-- The value of a digit in bases up to sixteen, of any script. -/
def digitValue? (base : Nat) (c : Char) : Option Nat :=
  ((decimalValue? c).or (hexValue? c)).filter (· < base)

/-- An integer in a base that may be told once more in front of it, between spaces and
after a sign. -/
def readBased? (base : Nat) (letters cs : List Char) : Option Int :=
  let (negative, cs) := signOf (trimSpaces cs)
  let cs := dropBase letters cs
  if cs.isEmpty then none
  else (cs.mapM (digitValue? base)).map fun ds =>
    let n : Int := ofDigits base ds
    if negative then -n else n

/-- Integers with colons between them, in base sixty. -/
def readSixty? (cs : List Char) : Option Int := do
  let parts ← (cs.splitOn ':').mapM readInteger?
  return parts.foldl (fun n d => n * 60 + d) 0

/-- An integer without a sign and without underscores. -/
def readUnsigned? (cs : List Char) : Option Int :=
  match cs with
  | ['0'] => some 0
  | '0' :: 'b' :: ds => readBased? 2 ['b', 'B'] ds
  | '0' :: 'x' :: ds => readBased? 16 ['x', 'X'] ds
  | '0' :: _ => readBased? 8 ['o', 'O'] cs
  | _ => if cs.contains ':' then readSixty? cs else readInteger? cs

/-- Whether a text starts with a minus sign. -/
def isNegated (cs : List Char) : Bool := cs.head? == some '-'

/-- The integer of a text. -/
def readInt (cs : List Char) : Except Fault Value :=
  let cs := cs.filter (· != '_')
  if (unsigned cs).isEmpty then .error .numberEmpty
  else
    match readUnsigned? (unsigned cs) with
    | some n => .ok (.int (if isNegated cs then -n else n))
    | none => .error .valueUnsuited

/-- A sum of floating-point numbers times powers of sixty, the last number times one;
`unit` is the power for the next. -/
def sumSixty (unit : Nat) (sum : Double) : List Double → Except Fault Double
  | [] => .ok sum
  | x :: rest =>
    if (Double.ofInt unit).isFinite then sumSixty (unit * 60) (sum.add (x.scale unit)) rest
    else .error .integerTooLarge

/-- A floating-point number without a sign and without underscores. -/
def readUnsignedFloat (cs : List Char) : Except Fault Double :=
  if cs = ".inf".toList then .ok (.infinite false)
  else if cs = ".nan".toList then .ok .nan
  else
    match (cs.splitOn ':').mapM Double.read? with
    | none => .error .valueUnsuited
    | some [x] => .ok x
    | some xs => sumSixty 1 (.zero false) xs.reverse

/-- The floating-point number of a text. -/
def readFloat (cs : List Char) : Except Fault Value := do
  let cs := (cs.filter (· != '_')).map lowerChar
  if cs.isEmpty then throw .numberEmpty
  let x ← readUnsignedFloat (unsigned cs)
  return .float (if isNegated cs then x.neg else x)

/-- The words for truth. -/
def trueWords : List String := ["yes", "true", "on"]

/-- The words for falsehood. -/
def falseWords : List String := ["no", "false", "off"]

/-- The truth value of a text, in any case. -/
def readBool (cs : List Char) : Except Fault Value :=
  let word := lower (String.ofList cs)
  if word ∈ trueWords then .ok (.bool true)
  else if word ∈ falseWords then .ok (.bool false)
  else .error .truthUnknown

/-- The stamp of a text, which may end with a line end. -/
def readStamp (cs : List Char) : Except Fault Value :=
  match stamp? (if cs.getLast? = some '\n' then cs.dropLast else cs) with
  | some t => if t.exists? then .ok (.stamp t) else .error .valueUnsuited
  | none => .error .stampFormless

/-- The bytes of a text in base 64. -/
def readBytes (cs : List Char) : Except Fault Value :=
  match if cs.all (·.toNat < 128) then Base64.decode? cs else none with
  | some bs => .ok (.bytes bs)
  | none => .error .yamlMalformed

end Kind

/-- The value of a text that is read as a kind. -/
def Kind.read (cs : List Char) : Kind → Except Fault Value
  | .null => .ok .null
  | .bool => readBool cs
  | .int => readInt cs
  | .float => readFloat cs
  | .stamp => readStamp cs
  | .text => .ok (.text (String.ofList cs))
  | .bytes => readBytes cs
  | _ => .error .yamlMalformed

end Storyboard.Yaml
