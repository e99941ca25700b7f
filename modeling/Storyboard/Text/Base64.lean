/-!
# Storyboard.Text.Base64

Bytes as text in base 64.  A character stands for six bits, and a byte is complete as soon
as there are eight.  Characters outside the alphabet count for nothing.  Signs of padding
end the text when there are as many as the bits that are left ask for; without them no bits
may be left.
-/

namespace Storyboard.Text.Base64

/-- The bits that a character stands for. -/
def bits? (c : Char) : Option Nat :=
  if 'A' ≤ c ∧ c ≤ 'Z' then some (c.toNat - 65)
  else if 'a' ≤ c ∧ c ≤ 'z' then some (c.toNat - 97 + 26)
  else if '0' ≤ c ∧ c ≤ '9' then some (c.toNat - 48 + 52)
  else if c = '+' then some 62
  else if c = '/' then some 63
  else none

/-- The bytes of a text, where `left` bits with the value `value` are left from before and
`pads` signs of padding stand right before it. -/
def decodeFrom? (left value pads : Nat) : List Char → Option (List UInt8)
  | [] => if left = 0 then some [] else none
  | '=' :: cs =>
    if left = 2 ∨ left = 4 then
      if left ≤ 2 * (pads + 1) then some [] else decodeFrom? left value (pads + 1) cs
    else decodeFrom? left value pads cs
  | c :: cs =>
    match bits? c with
    | none => decodeFrom? left value pads cs
    | some b =>
      match left with
      | 0 => decodeFrom? 6 b 0 cs
      | 2 => (decodeFrom? 0 0 0 cs).map (UInt8.ofNat (value * 64 + b) :: ·)
      | 4 => (decodeFrom? 2 (b % 4) 0 cs).map (UInt8.ofNat (value * 16 + b / 4) :: ·)
      | _ => (decodeFrom? 4 (b % 16) 0 cs).map (UInt8.ofNat (value * 4 + b / 16) :: ·)

/-- The bytes of a text. -/
def decode? (cs : List Char) : Option (List UInt8) := decodeFrom? 0 0 0 cs

end Storyboard.Text.Base64
