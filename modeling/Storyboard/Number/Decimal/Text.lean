import Storyboard.Number.Decimal
import Storyboard.Text.Blank
import Storyboard.Text.Digit

/-!
# Storyboard.Number.Decimal.Text

Decimals as text.  Reading takes blanks at the ends, underscores anywhere and digits of
any script, and is exact: `5.`, `.5`, `1e3`, `inf`, `nan12` and `sNaN` are decimals,
`1,5` and the empty text are not.  Writing keeps every digit; the exponent is spelt out
where it is positive or where more than five zeros would follow the point.
-/

namespace Storyboard

namespace Decimal

open Text Number

/-- The exponent beyond which no decimal is read. -/
def farExponent : Int := 999999999999999999

/-- The longest run of ASCII digits at the start, and what follows it. -/
def spanDigits (cs : List Char) : List Char × List Char :=
  (cs.takeWhile Char.isDigit, cs.dropWhile Char.isDigit)

/-- The number that ASCII digits denote. -/
def digitsValue (cs : List Char) : Nat := ofDigits 10 (cs.map fun c => c.toNat - 48)

/-- The sign at the start, and what follows it. -/
def splitSign : List Char → Bool × List Char
  | '-' :: cs => (true, cs)
  | '+' :: cs => (false, cs)
  | cs => (false, cs)

/-- The exponent part: nothing, or `e`, a sign and digits up to the end. -/
def readExponent? : List Char → Option Int
  | [] => some 0
  | c :: cs =>
    if c = 'e' ∨ c = 'E' then
      let (negative, ds) := splitSign cs
      if !ds.isEmpty && ds.all Char.isDigit then some (withSign negative (digitsValue ds)) else none
    else none

/-- A finite decimal, unless its exponent is out of reach. -/
def ofParts? (negative : Bool) (c : Nat) (e : Int) : Option Decimal :=
  let first := if c = 0 then e else e + digitCount c - 1
  if farExponent < first ∨ e < -2 * farExponent + 1 then none else some (.finite negative c e)

/-- An unsigned number: digits with at most one point among them, then an exponent. -/
def readNumber? (negative : Bool) (cs : List Char) : Option Decimal :=
  let (whole, rest) := spanDigits cs
  let (fraction, rest) :=
    match rest with
    | '.' :: rest => spanDigits rest
    | rest => ([], rest)
  if whole.isEmpty && fraction.isEmpty then none
  else
    (readExponent? rest).bind fun e =>
      ofParts? negative (digitsValue (whole ++ fraction)) (e - fraction.length)

/-- The payload of a NaN: digits up to the end. -/
def readPayload? (cs : List Char) : Option Nat :=
  if cs.all Char.isDigit then some (digitsValue cs) else none

/-- A decimal from ASCII characters without blanks. -/
def readPlain? (cs : List Char) : Option Decimal :=
  let (negative, cs) := splitSign cs
  match cs.map Char.toLower with
  | 'i' :: 'n' :: 'f' :: rest =>
    if rest = [] ∨ rest = "inity".toList then some (.infinite negative) else none
  | 'n' :: 'a' :: 'n' :: rest => (readPayload? rest).map (.nan negative false)
  | 's' :: 'n' :: 'a' :: 'n' :: rest => (readPayload? rest).map (.nan negative true)
  | _ => readNumber? negative cs

/-- A digit of any script as an ASCII digit; other characters stay. -/
def asciiDigit (c : Char) : Char := (decimalValue? c).elim c fun d => Char.ofNat (48 + d)

/-- The decimal that a text denotes. -/
def read (s : String) : Except Fault Decimal :=
  let cs := ((trim s.toList).filter (· != '_')).map asciiDigit
  match readPlain? cs with
  | some d => .ok d
  | none => .error .decimalUndefined

/-! ## writing -/

/-- A sign, where there is one. -/
def signText (negative : Bool) : String := if negative then "-" else ""

/-- A finite decimal with all its digits. -/
def finiteText (negative : Bool) (c : Nat) (e : Int) : String :=
  let ds := c.repr.toList
  let left := e + ds.length
  signText negative ++
    if e = 0 then String.ofList ds
    else if e < 0 ∧ -6 < left then
      if 0 < left then
        String.ofList (ds.take left.toNat ++ '.' :: ds.drop left.toNat)
      else String.ofList ('0' :: '.' :: (List.replicate (-left).toNat '0' ++ ds))
    else
      let first := left - 1
      let mantissa :=
        match ds with
        | d :: d' :: rest => String.ofList (d :: '.' :: d' :: rest)
        | ds => String.ofList ds
      mantissa ++ "E" ++ (if first < 0 then "-" else "+") ++ first.natAbs.repr

/-- A decimal with all its digits. -/
def text : Decimal → String
  | .finite negative c e => finiteText negative c e
  | .infinite negative => signText negative ++ "Infinity"
  | .nan negative signaling payload =>
    signText negative ++ (if signaling then "sNaN" else "NaN")
      ++ (if payload = 0 then "" else payload.repr)

end Decimal

end Storyboard
