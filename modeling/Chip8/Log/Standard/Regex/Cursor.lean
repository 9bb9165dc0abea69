import Chip8.Log.Standard.Blank

/-!
# Places in a pattern

A pattern is read from left to right by a cursor, which knows the line and the
column at which it stands. Where blanks are free, the cursor passes over blanks
and over comments between two parts of a pattern: a comment goes from a number
sign to the end of its line.
-/

namespace Chip8.Regex

structure Position where
  line : Nat := 1
  column : Nat := 1
deriving DecidableEq, Repr

namespace Position

/-- The position behind a character. -/
def after (p : Position) (c : Char) : Position :=
  if c = '\n' then ⟨p.line + 1, 1⟩ else ⟨p.line, p.column + 1⟩

def precedes (p q : Position) : Bool :=
  p.line < q.line || (p.line = q.line && p.column < q.column)

end Position

/-- A part of a pattern, from its first position to the one behind its last. -/
structure Span where
  start : Position
  stop : Position
deriving DecidableEq, Repr

structure Cursor where
  rest : List Char
  position : Position := {}
  /-- Whether blanks and comments are passed over. -/
  freeBlanks : Bool := false
deriving DecidableEq, Repr

namespace Cursor

def ofPattern (s : String) : Cursor := { rest := s.toList }

def current? (c : Cursor) : Option Char := c.rest.head?

def second? (c : Cursor) : Option Char := c.rest.tail.head?

def atEnd (c : Cursor) : Bool := c.rest.isEmpty

/-- Passes over one character. -/
def next (c : Cursor) : Cursor :=
  match c.rest with
  | [] => c
  | x :: rest => { c with rest, position := c.position.after x }

def dropWhile (p : Char → Bool) (c : Cursor) : Cursor :=
  go c.rest c.position
where
  go : List Char → Position → Cursor
    | [], place => { c with rest := [], position := place }
    | x :: rest, place =>
      if p x then go rest (place.after x) else { c with rest := x :: rest, position := place }

/-- Passes over blanks and comments where they are free. -/
def dropBlanks (c : Cursor) : Cursor :=
  if c.freeBlanks then go false c.rest c.position else c
where
  go (comment : Bool) : List Char → Position → Cursor
    | [], place => { c with rest := [], position := place }
    | x :: rest, place =>
      if comment then go (x ≠ '\n') rest (place.after x)
      else if isBlank x then go false rest (place.after x)
      else if x = '#' then go true rest (place.after x)
      else { c with rest := x :: rest, position := place }

/-- Passes over one character and the free blanks behind it. -/
def advance (c : Cursor) : Cursor := c.next.dropBlanks

/-- Passes over a given text if it comes next. -/
def drop? (c : Cursor) (text : List Char) : Option Cursor :=
  if text.isPrefixOf c.rest then some (text.foldl (fun c _ => c.next) c) else none

/-- The character behind the current one and behind free blanks. One number sign
counts as a blank here. -/
def ahead? (c : Cursor) : Option Char :=
  if c.freeBlanks then (go false c.rest.tail).or c.second? else c.second?
where
  go (marked : Bool) : List Char → Option Char
    | [] => none
    | x :: rest =>
      if isBlank x then go marked rest
      else if x = '#' ∧ ¬ marked then go true rest
      else some x

/-- The empty span at a cursor. -/
def here (c : Cursor) : Span := ⟨c.position, c.position⟩

/-- The span of the current character. -/
def single (c : Cursor) : Span := ⟨c.position, c.next.position⟩

def since (c : Cursor) (start : Position) : Span := ⟨start, c.position⟩

theorem length_next_lt (c : Cursor) (h : c.rest ≠ []) :
    c.next.rest.length < c.rest.length := by
  unfold next
  split
  · contradiction
  · rename_i heq
    simp [heq]

theorem length_go_dropBlanks_le (c : Cursor) (comment : Bool) (rest : List Char) (p : Position) :
    (dropBlanks.go c comment rest p).rest.length ≤ rest.length := by
  fun_induction dropBlanks.go c comment rest p <;> grind

theorem length_dropBlanks_le (c : Cursor) : c.dropBlanks.rest.length ≤ c.rest.length := by
  unfold dropBlanks
  split
  · exact length_go_dropBlanks_le ..
  · exact Nat.le_refl _

theorem length_advance_lt (c : Cursor) (h : c.rest ≠ []) :
    c.advance.rest.length < c.rest.length :=
  Nat.lt_of_le_of_lt (length_dropBlanks_le _) (length_next_lt c h)

/-- Collects characters for as long as they fit, with free blanks between them. -/
def collect (p : Char → Bool) (c : Cursor) : List Char × Cursor :=
  match h : c.rest with
  | [] => ([], c)
  | x :: _ =>
    if p x then
      have := length_advance_lt c (by simp [h])
      let (xs, c) := collect p c.advance
      (x :: xs, c)
    else ([], c)
termination_by c.rest.length

end Cursor

end Chip8.Regex
