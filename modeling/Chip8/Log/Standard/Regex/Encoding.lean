import Chip8.Log.Standard.Regex.Charset

/-!
# Characters as sequences of bytes

A range of characters, read in UTF-8, is a number of sequences: each says for every
byte from which to which it may go, and all bytes within these bounds are allowed
together. A range is cut where the number of bytes changes, and then so that only
the last bytes that differ take part of their bounds.
-/

namespace Chip8.Regex

/-- The bytes of a character. -/
def bytesOf (n : Nat) : List Nat :=
  if n < 0x80 then [n]
  else if n < 0x800 then [0xC0 + n / 0x40, 0x80 + n % 0x40]
  else if n < 0x10000 then [0xE0 + n / 0x1000, 0x80 + n / 0x40 % 0x40, 0x80 + n % 0x40]
  else [0xF0 + n / 0x40000, 0x80 + n / 0x1000 % 0x40, 0x80 + n / 0x40 % 0x40, 0x80 + n % 0x40]

namespace Range

/-- The parts of a range on both sides of the surrogates. -/
def aroundSurrogates (r : Range) : List Range :=
  [⟨r.first, min r.last 0xD7FF⟩, ⟨max r.first 0xE000, r.last⟩].filter fun r => r.first ≤ r.last

/-- The end of the first part, where characters of one length end. -/
def lengthCut? (r : Range) : Option Nat :=
  [0x7F, 0x7FF, 0xFFFF].find? fun n => r.first ≤ n && n < r.last

/-- The end of the first part, where the range begins or ends within a block of
characters that share their first bytes. -/
def blockCut? (r : Range) : Option Nat :=
  [0x40, 0x1000, 0x40000].findSome? fun block =>
    if r.last < 0x80 ∨ r.first / block = r.last / block then none
    else if r.first % block ≠ 0 then some (r.first / block * block + block - 1)
    else if r.last % block ≠ block - 1 then some (r.last / block * block - 1)
    else none

def cut? (r : Range) : Option Nat := r.lengthCut?.or r.blockCut?

/-- The sequences for a range that holds no surrogates. -/
def pieces (r : Range) : List (List Range) :=
  match r.cut? with
  | some n =>
    if _h : r.first ≤ n ∧ n < r.last then pieces ⟨r.first, n⟩ ++ pieces ⟨n + 1, r.last⟩
    else [whole]
  | none => [whole]
termination_by r.last - r.first
where
  whole : List Range := List.zipWith (⟨·, ·⟩) (bytesOf r.first) (bytesOf r.last)

def encodings (r : Range) : List (List Range) := r.aroundSurrogates.flatMap pieces

end Range

/-- The sequences for a set, in its order. -/
def Charset.encodings (s : Charset) : List (List Range) := s.ranges.flatMap Range.encodings

example : Range.lengthCut? ⟨0x61, 0xE9⟩ = some 0x7F := by decide
example : Range.blockCut? ⟨0xE9, 0x17F⟩ = some 0xFF := by decide

end Chip8.Regex
