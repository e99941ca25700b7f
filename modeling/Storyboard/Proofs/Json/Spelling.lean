import Storyboard.Json.Reader
import Storyboard.Proofs.Number.Numeral

/-!
# Storyboard.Proofs.Json.Spelling

A value of a JSON document as it is spelt: every blank, the digits of every number, the
letters of every escape.  A spelling determines its characters and its value, and it is
well formed by construction: no trailing comma, no leading zero, no control character in
a string can be put down, and no number that has no value.
-/

namespace Storyboard.Json

open Text Number

/-! ## blanks -/

/-- A character between two parts of a document. -/
inductive Blank
  | space
  | tab
  | lineFeed
  | carriageReturn
  deriving DecidableEq, Repr

/-- A blank as it is written. -/
def Blank.char : Blank → Char
  | .space => ' '
  | .tab => '\t'
  | .lineFeed => '\n'
  | .carriageReturn => '\r'

/-- The blanks at one place of a document. -/
abbrev Gap := List Blank

/-- Blanks as they are written. -/
def Gap.chars (g : Gap) : List Char := g.map Blank.char

/-! ## strings -/

/-- Whether a character may stand in a string for itself. -/
def isRaw (c : Char) : Bool := decide (0x20 ≤ c.toNat) && c != '"' && c != '\\'

/-- A part of a string: a character that stands for itself, a letter after a backslash, or
four digits of base sixteen after `\u`. -/
inductive Piece
  | char (c : Char) (h : isRaw c = true)
  | escape (letter meant : Char) (h : simpleEscape? letter = some meant)
  | code (a b c d : Char) (n : Nat) (h : fourHex? [a, b, c, d] = some (n, []))

/-- A part of a string as it is written. -/
def Piece.chars : Piece → List Char
  | .char c _ => [c]
  | .escape letter _ _ => ['\\', letter]
  | .code a b c d _ _ => ['\\', 'u', a, b, c, d]

/-- A string between its quotes. -/
abbrev Pieces := List Piece

namespace Pieces

/-- The characters between the quotes. -/
def chars (ps : Pieces) : List Char := ps.flatMap Piece.chars

/-- A string with its quotes. -/
def quoted (ps : Pieces) : List Char := '"' :: (ps.chars ++ ['"'])

/-- What two code units stand for that make up a pair. -/
def joined (high low : Nat) : List Char :=
  ofCode (0x10000 + (high - 0xD800) * 0x400 + (low - 0xDC00))

/-- The text that a string stands for.  Two code units make up one character if they are a
pair. -/
def meaning : Pieces → List Char
  | [] => []
  | .char c _ :: ps => c :: meaning ps
  | .escape _ meant _ :: ps => meant :: meaning ps
  | .code _ _ _ _ high _ :: .code a b c d low h :: ps =>
    if isHigh high && isLow low then joined high low ++ meaning ps
    else ofCode high ++ meaning (.code a b c d low h :: ps)
  | .code _ _ _ _ n _ :: ps => ofCode n ++ meaning ps

/-- The text of a string. -/
def text (ps : Pieces) : String := String.ofList ps.meaning

end Pieces

/-! ## numbers -/

/-- The exponent of a number. -/
structure Exponent where
  letter : Char
  sign : List Char
  digits : List Char
  letter_eq : letter = 'e' ∨ letter = 'E'
  sign_eq : sign = [] ∨ sign = ['+'] ∨ sign = ['-']
  digits_ne_nil : digits ≠ []
  isDigit : ∀ c ∈ digits, c.isDigit = true

namespace Exponent

/-- An exponent as it is written. -/
def chars (e : Exponent) : List Char := e.letter :: (e.sign ++ e.digits)

/-- An exponent after the letter that it is read with. -/
def normal (e : Exponent) : List Char := 'e' :: (e.sign ++ e.digits)

end Exponent

/-- A number as it is spelt: a decimal numeral without a leading zero, perhaps with an
exponent. -/
structure Literal extends Numeral where
  exponent : Option Exponent
  leading : whole.head? = some '0' → whole = ['0']

namespace Literal

variable (n : Literal)

/-- The sign of a number as it is written. -/
def sign : List Char := (Decimal.signText n.negative).toList

/-- A number as it is written. -/
def chars : List Char := n.sign ++ (n.unsigned ++ n.exponent.elim [] Exponent.chars)

/-- A number without its sign as it is read. -/
def magnitude : List Char := n.unsigned ++ n.exponent.elim [] Exponent.normal

/-- Whether a number is an integer: it has neither a point nor an exponent. -/
def isInteger : Bool := n.fraction.isEmpty && n.exponent.isNone

/-- The value of a number, none if it is out of reach. -/
def value? : Option Value :=
  if n.isInteger then (readInteger? (n.sign ++ n.magnitude)).map .int
  else (Double.read? (n.sign ++ n.magnitude)).map .float

end Literal

/-! ## values -/

/-- The words that are values. -/
inductive Word
  | null
  | true
  | false
  | nan
  | infinity
  | minusInfinity
  deriving DecidableEq, Repr

namespace Word

/-- A word as it is written. -/
def name : Word → String
  | null => "null"
  | true => "true"
  | false => "false"
  | nan => "NaN"
  | infinity => "Infinity"
  | minusInfinity => "-Infinity"

/-- The characters of a word. -/
def chars (w : Word) : List Char := w.name.toList

/-- The value of a word. -/
def value : Word → Value
  | null => .null
  | true => .bool Bool.true
  | false => .bool Bool.false
  | nan => .float .nan
  | infinity => .float (.infinite Bool.false)
  | minusInfinity => .float (.infinite Bool.true)

end Word

mutual

/-- A value as it is spelt. -/
inductive Spelling
  | word (w : Word)
  | number (n : Literal) (v : Value) (h : n.value? = some v)
  | string (s : Pieces)
  | noItems (gap : Gap)
  | list (gap : Gap) (items : Items)
  | noMembers (gap : Gap)
  | object (gap : Gap) (members : Members)

/-- The items of a list from one on, with the blanks after it, and before the next. -/
inductive Items
  | last (item : Spelling) (gap : Gap)
  | more (item : Spelling) (gap next : Gap) (items : Items)

/-- A member of an object: its name, its value, and the blanks around the colon. -/
inductive Member
  | mk (name : Pieces) (before after : Gap) (value : Spelling)

/-- The members of an object from one on, with the blanks after it, and before the next. -/
inductive Members
  | last (member : Member) (gap : Gap)
  | more (member : Member) (gap next : Gap) (members : Members)

end

mutual

/-- The characters of a spelling. -/
def Spelling.chars : Spelling → List Char
  | .word w => w.chars
  | .number n _ _ => n.chars
  | .string s => s.quoted
  | .noItems gap => '[' :: (gap.chars ++ [']'])
  | .list gap items => '[' :: (gap.chars ++ items.chars)
  | .noMembers gap => '{' :: (gap.chars ++ ['}'])
  | .object gap members => '{' :: (gap.chars ++ members.chars)

/-- The characters of items, up to the closing bracket. -/
def Items.chars : Items → List Char
  | .last item gap => item.chars ++ (gap.chars ++ [']'])
  | .more item gap next items => item.chars ++ (gap.chars ++ ',' :: (next.chars ++ items.chars))

/-- The characters of a member. -/
def Member.chars : Member → List Char
  | .mk name before after value =>
    name.quoted ++ (before.chars ++ ':' :: (after.chars ++ value.chars))

/-- The characters of members, up to the closing brace. -/
def Members.chars : Members → List Char
  | .last member gap => member.chars ++ (gap.chars ++ ['}'])
  | .more member gap next members =>
    member.chars ++ (gap.chars ++ ',' :: (next.chars ++ members.chars))

end

mutual

/-- The value of a spelling. -/
def Spelling.value : Spelling → Value
  | .word w => w.value
  | .number _ v _ => v
  | .string s => .text s.text
  | .noItems _ => .list []
  | .list _ items => .list items.values
  | .noMembers _ => .map []
  | .object _ members => .map (members.insertInto [])

/-- The values of items. -/
def Items.values : Items → List Value
  | .last item _ => [item.value]
  | .more item _ _ items => item.value :: items.values

/-- Entries with one more. -/
def Member.insertInto (before : Entries) : Member → Entries
  | .mk name _ _ value => Entries.insert (.text name.text) value.value before

/-- Entries with more of them; of two members with one name the later counts. -/
def Members.insertInto (before : Entries) : Members → Entries
  | .last member _ => member.insertInto before
  | .more member _ _ members => members.insertInto (member.insertInto before)

end

/-- A document as it is spelt, with the blanks around its value. -/
structure Document where
  before : Gap
  root : Spelling
  after : Gap

namespace Document

/-- The characters of a document. -/
def chars (d : Document) : List Char := d.before.chars ++ (d.root.chars ++ d.after.chars)

/-- The value of a document. -/
def value (d : Document) : Value := d.root.value

end Document

end Storyboard.Json
