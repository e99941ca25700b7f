import Storyboard.Text.Digit
import Storyboard.Text.Printable
import Storyboard.Text.Surrogate

/-!
# Storyboard.Text.Quoted

A text between quotes, as it appears inside a written list or mapping.  The quotes are
single unless the text holds a single quote and no double one, so that most texts need
no escape; a quote of the kind in use, a backslash and every unprintable character are
escaped, the latter by the shortest of `\t \n \r \xNN \uNNNN \UNNNNNNNN`.  Half of a
surrogate pair is escaped by its code.
-/

namespace Storyboard.Text

/-- The quote that a text is put between. -/
def quoteFor (cs : List Char) : Char :=
  if cs.contains '\'' && !cs.contains '"' then '"' else '\''

/-- One code of a quoted text. -/
def quotedCode (quote : Char) (n : Nat) : List Char :=
  let c := Char.ofNat n
  if c = quote ∨ c = '\\' then ['\\', c]
  else if c = '\n' then ['\\', 'n']
  else if c = '\r' then ['\\', 'r']
  else if c = '\t' then ['\\', 't']
  else if isPrintable c then [c]
  else if n ≤ 0xFF then '\\' :: 'x' :: (hexText 2 n).map Char.toLower
  else if n ≤ 0xFFFF then '\\' :: 'u' :: (hexText 4 n).map Char.toLower
  else '\\' :: 'U' :: (hexText 8 n).map Char.toLower

/-- A text between quotes. -/
def quoted (s : String) : String :=
  let cs := s.toList
  let quote := quoteFor cs
  String.ofList (quote :: ((codes cs).flatMap (quotedCode quote) ++ [quote]))

/-- A byte of quoted bytes. -/
def quotedByte (quote : Char) (b : UInt8) : List Char :=
  let c := Char.ofNat b.toNat
  if ' ' ≤ c ∧ c ≤ '~' then quotedCode quote b.toNat
  else if c = '\n' ∨ c = '\r' ∨ c = '\t' then quotedCode quote b.toNat
  else '\\' :: 'x' :: (hexText 2 b.toNat).map Char.toLower

/-- Bytes between quotes; only those that are printable ASCII stand for themselves. -/
def quotedBytes (bs : List UInt8) : String :=
  let quote := quoteFor (bs.map fun b => Char.ofNat b.toNat)
  String.ofList ('b' :: quote :: (bs.flatMap (quotedByte quote) ++ [quote]))

end Storyboard.Text
