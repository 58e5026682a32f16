import Typings.Unicode.CodeSet

/-!
# Sets of characters as bytes

The UTF-8 bytes of a range of code points are a few sequences of byte ranges: every choice of one byte
from each range is a member, and every member comes from one sequence.

* `byteSequences`: the sequences of a set, in the order of their members.

A range is cut where the number of bytes changes, and then where it enters and leaves the blocks that
agree in all but their last bytes; what is between the cuts is one sequence. An automaton that reads
bytes is made from these sequences, and its size from their number.
-/

namespace Typings.Regex

open Unicode (CodeRange CodeSet)

/-- A range of bytes, both ends included. -/
structure ByteRange where
  first : Nat
  last : Nat
deriving DecidableEq, Repr

/-- Byte ranges, one for each byte of a character. -/
abbrev ByteSequence := List ByteRange

/-- The ranges of code points whose UTF-8 forms have the same number of bytes. -/
def sameWidth : List CodeRange :=
  [⟨0, 0x7F⟩, ⟨0x80, 0x7FF⟩, ⟨0x800, 0xD7FF⟩, ⟨0xE000, 0xFFFF⟩, ⟨0x10000, 0x10FFFF⟩]

/-- The part of a range inside another. -/
def clip (r s : CodeRange) : Option CodeRange :=
  let t : CodeRange := ⟨max r.first s.first, min r.last s.last⟩
  if t.first ≤ t.last then some t else none

/-- The numbers of code points that agree in all but the last byte, the last two, the last three. -/
def blockSizes : List Nat := [0x40, 0x1000, 0x40000]

/-- A range cut where it enters and leaves whole blocks, for block after block. -/
def alignTo : List Nat → CodeRange → List CodeRange
  | [], r => [r]
  | size :: more, r =>
    if r.first / size = r.last / size then [r]
    else
      let start := (r.first + size - 1) / size * size
      let stop := (r.last + 1) / size * size
      let head : List CodeRange := if r.first < start then [⟨r.first, start - 1⟩] else []
      let tail : List CodeRange := if stop ≤ r.last then [⟨stop, r.last⟩] else []
      let middle := if start < stop then alignTo more ⟨start, stop - 1⟩ else []
      head ++ middle ++ tail

/-- The bytes of a code point. -/
def bytesOf (n : Nat) : List Nat := (String.utf8EncodeChar (Char.ofNat n)).map UInt8.toNat

/-- The sequence of a range of code points that differ in their last bytes only, and there freely. -/
def sequenceOf (r : CodeRange) : ByteSequence :=
  (bytesOf r.first).zipWith (fun a b => ⟨a, b⟩) (bytesOf r.last)

/-- The sequences of a range of code points. -/
def rangeSequences (r : CodeRange) : List ByteSequence :=
  (sameWidth.filterMap (clip r)).flatMap fun part =>
    if part.last < 0x80 then [[⟨part.first, part.last⟩]]
    else (alignTo blockSizes part).map sequenceOf

/-- The sequences of a set. -/
def byteSequences (s : CodeSet) : List ByteSequence := s.ranges.flatMap rangeSequences

end Typings.Regex
