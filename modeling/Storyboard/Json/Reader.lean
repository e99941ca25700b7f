import Storyboard.Number.Double.Read
import Storyboard.Number.Integer
import Storyboard.Text.Surrogate
import Storyboard.Value

/-!
# Storyboard.Json.Reader

Reading a JSON document.  The grammar is the strict one: no comment, no comma before a
closing bracket, no control character inside a string, no zero before another digit, no
byte order mark.  Beyond it `NaN`, `Infinity` and `-Infinity` are numbers.  Numbers with
a point or an exponent are floating-point numbers, the others integers; of two members
with one name the later gives the value and the earlier the place.

Every reader takes the characters from where it stands and hands on those that it left.
-/

namespace Storyboard.Json

open Text Number

/-- The characters after blanks. -/
def skipBlanks (cs : List Char) : List Char :=
  cs.dropWhile fun c => c == ' ' || c == '\t' || c == '\n' || c == '\r'

/-- The characters after a given word, if it stands here. -/
def word? : List Char → List Char → Option (List Char)
  | [], cs => some cs
  | w :: ws, c :: cs => if w = c then word? ws cs else none
  | _ :: _, [] => none

/-! ## strings -/

/-- The value of four digits of base sixteen, and what follows them. -/
def fourHex? : List Char → Option (Nat × List Char)
  | a :: b :: c :: d :: cs =>
    match hexValue? a, hexValue? b, hexValue? c, hexValue? d with
    | some a, some b, some c, some d => some (((a * 16 + b) * 16 + c) * 16 + d, cs)
    | _, _, _, _ => none
  | _ => none

/-- Whether a code unit begins a surrogate pair. -/
def isHigh (n : Nat) : Bool := decide (0xD800 ≤ n ∧ n ≤ 0xDBFF)

/-- Whether a code unit ends a surrogate pair. -/
def isLow (n : Nat) : Bool := decide (0xDC00 ≤ n ∧ n ≤ 0xDFFF)

/-- What a code unit stands for, where the second half of a pair may follow as another
escape. -/
def codeUnit (n : Nat) (cs : List Char) : List Char × List Char :=
  if isHigh n then
    match cs with
    | '\\' :: 'u' :: rest =>
      match fourHex? rest with
      | some (m, rest') =>
        if isLow m then (ofCode (0x10000 + (n - 0xD800) * 0x400 + (m - 0xDC00)), rest')
        else (ofCode n, cs)
      | none => (ofCode n, cs)
    | _ => (ofCode n, cs)
  else (ofCode n, cs)

/-- The character that stands behind a backslash. -/
def simpleEscape? (c : Char) : Option Char :=
  if c = '"' ∨ c = '\\' ∨ c = '/' then some c
  else if c = 'b' then some '\x08'
  else if c = 'f' then some '\x0c'
  else if c = 'n' then some '\n'
  else if c = 'r' then some '\r'
  else if c = 't' then some '\t'
  else none

/-- The characters of a string up to its closing quote.  `fuel` bounds their number. -/
def readString : Nat → List Char → Except Fault (List Char × List Char)
  | 0, _ => .error .jsonMalformed
  | fuel + 1, cs =>
    match cs with
    | [] => .error .jsonMalformed
    | '"' :: rest => .ok ([], rest)
    | '\\' :: 'u' :: rest =>
      match fourHex? rest with
      | none => .error .jsonMalformed
      | some (n, rest) => do
        let (meant, rest) := codeUnit n rest
        let (us, rest) ← readString fuel rest
        return (meant ++ us, rest)
    | '\\' :: c :: rest =>
      match simpleEscape? c with
      | none => .error .jsonMalformed
      | some c => do
        let (us, rest) ← readString fuel rest
        return (c :: us, rest)
    | c :: rest =>
      if c.toNat < 0x20 ∨ c = '\\' then .error .jsonMalformed
      else do
        let (us, rest) ← readString fuel rest
        return (c :: us, rest)

/-! ## numbers -/

/-- ASCII digits at the start, and what follows them. -/
def digits (cs : List Char) : List Char × List Char :=
  (cs.takeWhile Char.isDigit, cs.dropWhile Char.isDigit)

/-- A point and at least one digit, if they stand here. -/
def fractionPart (cs : List Char) : List Char × List Char :=
  match cs with
  | '.' :: rest =>
    let (ds, rest') := digits rest
    if ds.isEmpty then ([], cs) else ('.' :: ds, rest')
  | _ => ([], cs)

/-- An `e`, a sign and at least one digit, if they stand here. -/
def exponentPart (cs : List Char) : List Char × List Char :=
  match cs with
  | c :: rest =>
    if c = 'e' ∨ c = 'E' then
      let (sign, rest) :=
        match rest with
        | '+' :: rest => (['+'], rest)
        | '-' :: rest => (['-'], rest)
        | rest => ([], rest)
      let (ds, rest') := digits rest
      if ds.isEmpty then ([], cs) else ('e' :: (sign ++ ds), rest')
    else ([], cs)
  | [] => ([], cs)

/-- The digits before the point: a zero alone, or digits of which the first is none. -/
def wholePart (cs : List Char) : List Char × List Char :=
  match cs with
  | '0' :: rest => (['0'], rest)
  | cs => digits cs

/-- The number that stands here. -/
def readNumber (cs : List Char) : Except Fault (Value × List Char) :=
  let (sign, rest) :=
    match cs with
    | '-' :: rest => (['-'], rest)
    | rest => ([], rest)
  let (whole, rest) := wholePart rest
  if whole.isEmpty then .error .jsonMalformed
  else
    let (fraction, rest) := fractionPart rest
    let (exponent, rest) := exponentPart rest
    let text := sign ++ whole ++ fraction ++ exponent
    if fraction.isEmpty && exponent.isEmpty then
      match readInteger? text with
      | some i => .ok (.int i, rest)
      | none => .error .valueUnsuited
    else
      match Double.read? text with
      | some x => .ok (.float x, rest)
      | none => .error .jsonMalformed

/-! ## values -/

/-- The words that are values. -/
def words : List (String × Value) :=
  [("null", .null), ("true", .bool true), ("false", .bool false), ("NaN", .float .nan),
   ("Infinity", .float (.infinite false)), ("-Infinity", .float (.infinite true))]

/-- The word that stands here, and its value. -/
def readWord? (cs : List Char) : Option (Value × List Char) :=
  words.findSome? fun w => (word? w.1.toList cs).map fun rest => (w.2, rest)

mutual

/-- The value that stands here, which no blank precedes.  `fuel` bounds the steps. -/
def readValue : Nat → List Char → Except Fault (Value × List Char)
  | 0, _ => .error .jsonMalformed
  | fuel + 1, cs =>
    match cs with
    | '"' :: rest => do
      let (us, rest) ← readString (fuel + 1) rest
      return (.text (String.ofList us), rest)
    | '[' :: rest =>
      match skipBlanks rest with
      | ']' :: rest => .ok (.list [], rest)
      | rest => do
        let (items, rest) ← readItems fuel rest
        return (.list items, rest)
    | '{' :: rest =>
      match skipBlanks rest with
      | '}' :: rest => .ok (.map [], rest)
      | rest => do
        let (entries, rest) ← readMembers fuel [] rest
        return (.map entries, rest)
    | cs =>
      match readWord? cs with
      | some found => .ok found
      | none => readNumber cs

/-- The items of a list from the next one on, up to the closing bracket. -/
def readItems : Nat → List Char → Except Fault (List Value × List Char)
  | 0, _ => .error .jsonMalformed
  | fuel + 1, cs => do
    let (v, rest) ← readValue fuel cs
    match skipBlanks rest with
    | ',' :: rest =>
      let (vs, rest) ← readItems fuel (skipBlanks rest)
      return (v :: vs, rest)
    | ']' :: rest => return ([v], rest)
    | _ => throw .jsonMalformed

/-- The members of an object from the next one on, up to the closing brace, inserted
after those that were read before. -/
def readMembers : Nat → Entries → List Char → Except Fault (Entries × List Char)
  | 0, _, _ => .error .jsonMalformed
  | fuel + 1, before, cs =>
    match cs with
    | '"' :: rest => do
      let (us, rest) ← readString (fuel + 1) rest
      match skipBlanks rest with
      | ':' :: rest =>
        let (v, rest) ← readValue fuel (skipBlanks rest)
        let entries := Entries.insert (.text (String.ofList us)) v before
        match skipBlanks rest with
        | ',' :: rest => readMembers fuel entries (skipBlanks rest)
        | '}' :: rest => return (entries, rest)
        | _ => throw .jsonMalformed
      | _ => throw .jsonMalformed
    | _ => .error .jsonMalformed

end

/-- The value of a document. -/
def read (cs : List Char) : Except Fault Value := do
  let (v, rest) ← readValue (2 * cs.length + 2) (skipBlanks cs)
  if (skipBlanks rest).isEmpty then return v else throw .jsonMalformed

end Storyboard.Json
