import Storyboard.Color

/-!
# Storyboard.Color.Picture

A picture in one color as the bytes of a PNG file: the signature, a chunk with the size,
one with the pixels and one that ends the file.  The pixels are stored without
compression, in blocks that are as large as the format allows.
-/

namespace Storyboard.Color.Picture

/-- Four bytes, the most significant first. -/
def fourBytes (n : UInt32) : ByteArray :=
  ⟨#[(n >>> 24).toUInt8, (n >>> 16).toUInt8, (n >>> 8).toUInt8, n.toUInt8]⟩

/-- Two bytes, the least significant first. -/
def twoBytes (n : Nat) : ByteArray := ⟨#[UInt8.ofNat (n % 256), UInt8.ofNat (n / 256)]⟩

/-- One bit of the cyclic redundancy check. -/
def checkBit (c : UInt32) : UInt32 :=
  if c &&& 1 = 1 then (c >>> 1) ^^^ 0xEDB88320 else c >>> 1

/-- One byte of the cyclic redundancy check. -/
def checkByte (c : UInt32) (b : UInt8) : UInt32 := Nat.repeat checkBit 8 (c ^^^ b.toUInt32)

/-- The cyclic redundancy check of a chunk. -/
def check (bytes : ByteArray) : UInt32 := bytes.foldl checkByte 0xFFFFFFFF ^^^ 0xFFFFFFFF

/-- The checksum of the pixels: the sum of the bytes plus one, and the sum of all these
sums, both modulo the largest prime of sixteen bits. -/
def checksum (bytes : ByteArray) : UInt32 :=
  let (a, b) := bytes.foldl (fun (a, b) byte =>
    let a := (a + byte.toUInt32) % 65521
    (a, (b + a) % 65521)) (1, 0)
  (b <<< 16) ||| a

/-- A chunk: its length, its name, its content and their check. -/
def chunk (name : String) (content : ByteArray) : ByteArray :=
  let body := name.toUTF8 ++ content
  fourBytes (UInt32.ofNat content.size) ++ body ++ fourBytes (check body)

/-- Bytes several times over. -/
def times (n : Nat) (bytes : ByteArray) : ByteArray :=
  Nat.repeat (fun all => all ++ bytes) n .empty

/-- The pixels row by row, a zero in front of each row. -/
def pixels (width height : Nat) (color : RGB) : ByteArray :=
  let pixel : ByteArray :=
    ⟨#[UInt8.ofNat color.red, UInt8.ofNat color.green, UInt8.ofNat color.blue]⟩
  times height (⟨#[0]⟩ ++ times width pixel)

/-- The size of the largest block. -/
def blockSize : Nat := 65535

/-- The blocks of bytes from a place on; the last block is marked. -/
def blocks (bytes : ByteArray) (start : Nat) : Nat → ByteArray → ByteArray
  | 0, out => out
  | n + 1, out =>
    let stop := min (start + blockSize) bytes.size
    let length := stop - start
    let head : ByteArray := ⟨#[if n = 0 then 1 else 0]⟩
    blocks bytes stop n
      (out ++ head ++ twoBytes length ++ twoBytes (blockSize - length) ++ bytes.extract start stop)

/-- Bytes as a stream without compression. -/
def stream (bytes : ByteArray) : ByteArray :=
  let count := max 1 ((bytes.size + blockSize - 1) / blockSize)
  ⟨#[0x78, 0x01]⟩ ++ blocks bytes 0 count .empty ++ fourBytes (checksum bytes)

/-- A picture as a file. -/
def bytes (width height : Nat) (color : RGB) : ByteArray :=
  let size :=
    fourBytes (UInt32.ofNat width) ++ fourBytes (UInt32.ofNat height) ++ ⟨#[8, 2, 0, 0, 0]⟩
  ⟨#[0x89, 0x50, 0x4E, 0x47, 0x0D, 0x0A, 0x1A, 0x0A]⟩ ++ chunk "IHDR" size
    ++ chunk "IDAT" (stream (pixels width height color)) ++ chunk "IEND" .empty

end Storyboard.Color.Picture
