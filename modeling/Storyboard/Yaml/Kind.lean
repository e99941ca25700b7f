import Storyboard.Number.Power
import Storyboard.Value.Stamp
import Storyboard.Text.Digit

/-!
# Storyboard.Yaml.Kind

What a node is.  A tag says so, or for a plain scalar its text: a text of the form of a
number, a truth value, a stamp or nothing is one, and every other is text.  The forms are
narrower than one may expect: an exponent needs a point before it and a sign, so `1e3` is
text, and `08` is text because a leading zero makes a number octal.
-/

namespace Storyboard.Yaml

open Text

/-- What a node is. -/
inductive Kind
  | null
  | bool
  | int
  | float
  | stamp
  /-- The key under which other mappings are taken over. -/
  | merge
  /-- The key of a mapping's value as a whole. -/
  | whole
  | text
  | bytes
  | sequence
  | mapping
  /-- A list of mappings with one entry each. -/
  | pairs
  /-- A mapping of which only the keys count. -/
  | set
  /-- What a tag says that has no meaning here. -/
  | unknown
  deriving DecidableEq, Repr

namespace Kind

/-- What the tags of the common schema start with. -/
def schema : String := "tag:yaml.org,2002:"

/-- The tags of the common schema. -/
def tags : List (String × Kind) :=
  [("null", .null), ("bool", .bool), ("int", .int), ("float", .float), ("timestamp", .stamp),
   ("merge", .merge), ("value", .whole), ("str", .text), ("seq", .sequence), ("map", .mapping),
   ("binary", .bytes), ("omap", .pairs), ("pairs", .pairs), ("set", .set)]

/-- The kind of a tag. -/
def ofTag (tag : String) : Kind :=
  ((tags.find? fun t => schema ++ t.1 == tag).map Prod.snd).getD .unknown

/-! ## the forms of plain scalars -/

/-- Whether a character is an ASCII digit. -/
def isNumeral (c : Char) : Bool := c.isDigit

/-- Whether a character is an ASCII digit or an underscore. -/
def isLoose (c : Char) : Bool := isNumeral c || c == '_'

/-- A text without the sign it may start with. -/
def unsigned : List Char → List Char
  | '+' :: cs => cs
  | '-' :: cs => cs
  | cs => cs

/-- The words for nothing. -/
def nullWords : List String := ["~", "null", "Null", "NULL", ""]

/-- The words for truth values. -/
def boolWords : List String :=
  ["yes", "Yes", "YES", "no", "No", "NO", "true", "True", "TRUE", "false", "False", "FALSE",
   "on", "On", "ON", "off", "Off", "OFF"]

/-- Whether a text is one or two digits below sixty. -/
def isSixtieth : List Char → Bool
  | [d] => isNumeral d
  | [t, d] => decide ('0' ≤ t ∧ t ≤ '5') && isNumeral d
  | _ => false

/-- Whether a text holds characters of a kind only, and at least one. -/
def isFilled (p : Char → Bool) (cs : List Char) : Bool := !cs.isEmpty && cs.all p

/-- Whether a text is an integer: in base ten, with a leading zero in base eight, after
`0b` in base two, after `0x` in base sixteen, with colons in base sixty. -/
def isInt (cs : List Char) : Bool :=
  match unsigned cs with
  | ['0'] => true
  | '0' :: 'b' :: ds => isFilled (fun c => c == '0' || c == '1' || c == '_') ds
  | '0' :: 'x' :: ds => isFilled (fun c => isHexDigit c || c == '_') ds
  | '0' :: ds => isFilled (fun c => decide ('0' ≤ c ∧ c ≤ '7') || c == '_') ds
  | d :: ds =>
    match ds.splitOn ':' with
    | head :: parts => isNumeral d && head.all isLoose && parts.all isSixtieth
    | [] => false
  | [] => false

/-- Whether a text is nothing or an exponent, whose sign is written. -/
def isExponent : List Char → Bool
  | [] => true
  | e :: s :: ds => (e == 'e' || e == 'E') && (s == '+' || s == '-') && isFilled isNumeral ds
  | _ => false

/-- Whether a text is a number with a point: in base ten, perhaps with an exponent, or
with colons in base sixty, or without a value. -/
def isFloat (cs : List Char) : Bool :=
  let body := unsigned cs
  match body.splitOn '.' with
  | [[], places] =>
    let word := String.ofList places
    word ∈ ["inf", "Inf", "INF"]
      || body == cs && (word ∈ ["nan", "NaN", "NAN"]
        || startsIn isNumeral places && isExponent (places.dropWhile isLoose))
  | [units, places] =>
    startsIn isNumeral units &&
      match units.splitOn ':' with
      | [_] => units.all isLoose && isExponent (places.dropWhile isLoose)
      | head :: parts => head.all isLoose && parts.all isSixtieth && places.all isLoose
      | [] => false
  | _ => false
where
  /-- Whether a text starts with a character of a kind. -/
  startsIn (p : Char → Bool) (cs : List Char) : Bool := cs.head?.any p

/-- The number at the start of a text, which has from `least` to `most` digits, and the
rest. -/
def number? (least most : Nat) (cs : List Char) : Option (Nat × List Char) :=
  let ds := (cs.take most).takeWhile isNumeral
  if least ≤ ds.length then
    some (ofDigits 10 (ds.map fun c => c.toNat - 48), cs.drop ds.length)
  else none

/-- The rest of a text after a character. -/
def after? (c : Char) : List Char → Option (List Char)
  | c' :: cs => if c' = c then some cs else none
  | [] => none

/-- The distance from universal time at the end of a stamp, in minutes. -/
def offset? (cs : List Char) : Option (Option Int) :=
  match cs.dropWhile fun c => c == ' ' || c == '\t' with
  | [] => if cs.isEmpty then some none else none
  | ['Z'] => some (some 0)
  | sign :: rest => do
    if sign ≠ '+' ∧ sign ≠ '-' then none
    let (hours, rest) ← number? 1 2 rest
    let minutes ←
      match rest with
      | [] => some 0
      | rest => do
        let (minutes, rest) ← number? 2 2 (← after? ':' rest)
        if rest.isEmpty then some minutes else none
    let total : Int := (hours * 60 + minutes : Nat)
    return some (if sign = '-' then -total else total)

/-- A fraction of a second in millionths, what is smaller being cut off, and the rest. -/
def micros (cs : List Char) : Nat × List Char :=
  match cs with
  | '.' :: rest =>
    let ds := rest.takeWhile isNumeral
    let kept := ds.take 6
    let units := ofDigits 10 (kept.map fun c => c.toNat - 48)
    (units * Number.tens (6 - kept.length), rest.drop ds.length)
  | cs => (0, cs)

/-- The stamp of a text that has the form of one. -/
def stamp? (cs : List Char) : Option Stamp := do
  let (year, cs) ← number? 4 4 cs
  let (month, cs) ← number? 1 2 (← after? '-' cs)
  let (day, cs) ← number? 1 2 (← after? '-' cs)
  let rest :=
    match cs with
    | [] => none
    | 'T' :: rest => some rest
    | 't' :: rest => some rest
    | cs => some (cs.dropWhile fun c => c == ' ' || c == '\t')
  match rest with
  | none => return .day year month day
  | some rest =>
    if rest.length = cs.length then none
    let (hour, rest) ← number? 1 2 rest
    let (minute, rest) ← number? 2 2 (← after? ':' rest)
    let (second, rest) ← number? 2 2 (← after? ':' rest)
    let (fraction, rest) := micros rest
    return .moment year month day hour minute second fraction (← offset? rest)

/-- Whether a plain text is a stamp; a day alone has two digits for the month and for
the day. -/
def isStamp (cs : List Char) : Bool :=
  match stamp? cs with
  | some (.day _ _ _) => cs.length == 10
  | some (.moment _ _ _ _ _ _ _ _) => true
  | none => false

/-- The kind of a text on one line. -/
def ofLine (cs : List Char) : Kind :=
  let s := String.ofList cs
  if s ∈ boolWords then .bool
  else if isFloat cs then .float
  else if isInt cs then .int
  else if s = "<<" then .merge
  else if s ∈ nullWords then .null
  else if isStamp cs then .stamp
  else if s = "=" then .whole
  else .text

/-- The kind of a plain scalar.  A line end after the text does not count, but there has
to be text before it. -/
def ofText (cs : List Char) : Kind :=
  match cs.reverse with
  | '\n' :: c :: before => ofLine (c :: before).reverse
  | ['\n'] => .text
  | _ => ofLine cs

end Kind

end Storyboard.Yaml
