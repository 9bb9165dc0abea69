/-!
# Sets of characters

A set is a list of ranges of code points, in order and with a gap between any
two. It is taken within an alphabet: all characters, or the bytes. Surrogates are
no characters, so that U+E000 follows U+D7FF; yet ranges that meet there are not
joined.
-/

namespace Chip8.Regex

structure Range where
  first : Nat
  last : Nat
deriving DecidableEq, Repr

/-- What the complement of a set is taken in. -/
inductive Alphabet where
  | characters | bytes
deriving DecidableEq, Repr

namespace Alphabet

def last : Alphabet → Nat
  | characters => 0x10FFFF
  | bytes => 0xFF

/-- The number behind a number. -/
def next : Alphabet → Nat → Nat
  | characters, n => if n = 0xD7FF then 0xE000 else n + 1
  | bytes, n => n + 1

/-- The number before a number. -/
def previous : Alphabet → Nat → Nat
  | characters, n => if n = 0xE000 then 0xD7FF else n - 1
  | bytes, n => n - 1

end Alphabet

structure Charset where
  ranges : List Range := []
deriving DecidableEq, Repr

namespace Charset

def contains (s : Charset) (n : Nat) : Bool := s.ranges.any fun r => r.first ≤ n && n ≤ r.last

/-- Joins ranges that overlap or touch. They come in the order of their starts. -/
def join : List Range → List Range
  | [] => []
  | r :: rest => go r rest
where
  go : Range → List Range → List Range
    | r, [] => [r]
    | r, s :: rest =>
      if s.first ≤ r.last + 1 then go ⟨r.first, max r.last s.last⟩ rest else r :: go s rest

def ofRanges (ranges : List Range) : Charset :=
  ⟨join (ranges.mergeSort fun r s => decide (r.first ≤ s.first))⟩

def single (n : Nat) : Charset := ⟨[⟨n, n⟩]⟩

def isEmpty (s : Charset) : Bool := s.ranges.isEmpty

def isAscii (s : Charset) : Bool := s.ranges.all fun r => r.last < 0x80

/-- The only number in a set. -/
def single? (s : Charset) : Option Nat :=
  match s.ranges with
  | [r] => if r.first = r.last then some r.first else none
  | _ => none

def union (s t : Charset) : Charset := ofRanges (s.ranges ++ t.ranges)

/-- The gaps from a number to the last of an alphabet. Where two ranges meet at
the surrogates, the gap between them is taken to hold both of their ends. -/
def gaps (a : Alphabet) : Nat → List Range → List Range
  | start, [] => if start ≤ a.last then [⟨start, a.last⟩] else []
  | start, r :: rest =>
    let stop := a.previous r.first
    (if 0 < r.first then [⟨min start stop, max start stop⟩] else []) ++
      gaps a (a.next r.last) rest

def complement (a : Alphabet) (s : Charset) : Charset := ⟨gaps a 0 s.ranges⟩

/-- What two ranges share. -/
def overlap (r s : Range) : List Range :=
  let first := max r.first s.first
  let last := min r.last s.last
  if first ≤ last then [⟨first, last⟩] else []

def inter (s t : Charset) : Charset := ⟨go s.ranges t.ranges⟩
where
  go : List Range → List Range → List Range
    | r :: rs, s :: ss =>
      overlap r s ++ (if r.last < s.last then go rs (s :: ss) else go (r :: rs) ss)
    | _, _ => []
  termination_by rs ss => rs.length + ss.length

/-- What is in the first set and not in the second. -/
def difference (a : Alphabet) (s t : Charset) : Charset := ⟨go s.ranges t.ranges⟩
where
  go : List Range → List Range → List Range
    | r :: rs, s :: ss =>
      if s.last < r.first then go (r :: rs) ss
      else if r.last < s.first then r :: go rs (s :: ss)
      else
        (if r.first < s.first then [⟨r.first, a.previous s.first⟩] else []) ++
          (if s.last < r.last then go (⟨a.next s.last, r.last⟩ :: rs) ss else go rs (s :: ss))
    | rs, _ => rs
  termination_by rs ss => rs.length + ss.length

def symmetricDifference (a : Alphabet) (s t : Charset) : Charset :=
  difference a (s.union t) (s.inter t)

/-- The part of a range within bounds, moved up by one distance and down by
another. -/
def moved (low high up down : Nat) (r : Range) : List Range :=
  let first := max r.first low
  let last := min r.last high
  if first ≤ last then [⟨first + up - down, last + up - down⟩] else []

/-- Adds the other case of every ASCII letter. -/
def withBothCases (s : Charset) : Charset :=
  ofRanges (s.ranges ++ s.ranges.flatMap (moved 0x41 0x5A 0x20 0) ++
    s.ranges.flatMap (moved 0x61 0x7A 0 0x20))

end Charset

/-- The sets that have names within a class. -/
inductive NamedClass where
  | alnum | alpha | ascii | blank | cntrl | digit | graph | lower | print | punct | space
  | upper | word | xdigit
deriving DecidableEq, Repr

namespace NamedClass

def all : List NamedClass :=
  [alnum, alpha, ascii, blank, cntrl, digit, graph, lower, print, punct, space, upper, word,
    xdigit]

def name : NamedClass → String
  | alnum => "alnum" | alpha => "alpha" | ascii => "ascii" | blank => "blank"
  | cntrl => "cntrl" | digit => "digit" | graph => "graph" | lower => "lower"
  | print => "print" | punct => "punct" | space => "space" | upper => "upper"
  | word => "word" | xdigit => "xdigit"

def ofName? (name : String) : Option NamedClass := all.find? (·.name = name)

def digits : Range := ⟨0x30, 0x39⟩

def capitals : Range := ⟨0x41, 0x5A⟩

def smalls : Range := ⟨0x61, 0x7A⟩

def set : NamedClass → Charset
  | alnum => ⟨[digits, capitals, smalls]⟩
  | alpha => ⟨[capitals, smalls]⟩
  | ascii => ⟨[⟨0, 0x7F⟩]⟩
  | blank => ⟨[⟨9, 9⟩, ⟨0x20, 0x20⟩]⟩
  | cntrl => ⟨[⟨0, 0x1F⟩, ⟨0x7F, 0x7F⟩]⟩
  | digit => ⟨[digits]⟩
  | graph => ⟨[⟨0x21, 0x7E⟩]⟩
  | lower => ⟨[smalls]⟩
  | print => ⟨[⟨0x20, 0x7E⟩]⟩
  | punct => ⟨[⟨0x21, 0x2F⟩, ⟨0x3A, 0x40⟩, ⟨0x5B, 0x60⟩, ⟨0x7B, 0x7E⟩]⟩
  | space => ⟨[⟨9, 0xD⟩, ⟨0x20, 0x20⟩]⟩
  | upper => ⟨[capitals]⟩
  | word => ⟨[digits, capitals, ⟨0x5F, 0x5F⟩, smalls]⟩
  | xdigit => ⟨[digits, ⟨0x41, 0x46⟩, ⟨0x61, 0x66⟩]⟩

end NamedClass

end Chip8.Regex
