import Chip8.Log.Standard.Regex.Tree

/-!
# Escapes

A backslash takes the special sense from a character or gives one to a letter:
a control character, a character by its number, a set of characters, or a place
between characters. Other letters and the digits have no such sense.
-/

namespace Chip8.Regex

namespace Escape

def isMeta (c : Char) : Bool := "\\.+*?()|[]\x7b\x7d^$#&-~".toList.contains c

/-- Whether a backslash before the character only makes it stand for itself. -/
def isEscapable (c : Char) : Bool :=
  isMeta c || (c.toNat < 0x80 && !c.isAlphanum && c ≠ '<' && c ≠ '>')

/-- The character that a letter stands for. -/
def control? : Char → Option Char
  | 'a' => some '\x07'
  | 'f' => some '\x0C'
  | 't' => some '\t'
  | 'n' => some '\n'
  | 'r' => some '\r'
  | 'v' => some '\x0B'
  | _ => none

def assertion? : Char → Option Assertion
  | 'A' => some .textStart
  | 'z' => some .textEnd
  | 'b' => some (.edge .either)
  | 'B' => some (.edge .neither)
  | '<' => some (.edge .start)
  | '>' => some (.edge .stop)
  | _ => none

def shorthand? : Char → Option (Shorthand × Bool)
  | 'd' => some (.digit, false)
  | 'D' => some (.digit, true)
  | 's' => some (.space, false)
  | 'S' => some (.space, true)
  | 'w' => some (.word, false)
  | 'W' => some (.word, true)
  | _ => none

/-- The number of digits that a letter asks for. -/
def hexLength? : Char → Option Nat
  | 'x' => some 2
  | 'u' => some 4
  | 'U' => some 8
  | _ => none

def hexValue? (c : Char) : Option Nat :=
  if '0' ≤ c ∧ c ≤ '9' then some (c.toNat - '0'.toNat)
  else if 'a' ≤ c ∧ c ≤ 'f' then some (c.toNat - 'a'.toNat + 10)
  else if 'A' ≤ c ∧ c ≤ 'F' then some (c.toNat - 'A'.toNat + 10)
  else none

def isHex (c : Char) : Bool := (hexValue? c).isSome

/-- The character with a number, unless no character has it. -/
def charOfHex? (digits : List Char) : Option Char :=
  let n := digits.foldl (fun n c => 16 * n + (hexValue? c).getD 0) 0
  if n < 0xD800 ∨ (0xDFFF < n ∧ n < 0x110000) then some (Char.ofNat n) else none

/-- A given number of digits. -/
def readDigits (c : Cursor) : Nat → Except Fault (List Char × Cursor)
  | 0 => .ok ([], c)
  | n + 1 =>
    match c.current? with
    | none => .error { kind := .escapeEnd, span := c.here }
    | some x =>
      if isHex x then do
        let (digits, c) ← readDigits c.advance n
        return (x :: digits, c)
      else .error { kind := .hexDigit, span := c.single }

def readFixedHex (start : Position) (isByte : Bool) (length : Nat) (c : Cursor) :
    Except Fault (Primitive × Cursor) := do
  let (digits, c') ← readDigits c length
  match charOfHex? digits with
  | none => .error { kind := .hexNoCharacter, span := c'.since c.position }
  | some char => return (.literal { span := c'.since start, char, isByte }, c')

/-- Digits in braces. The cursor is at the opening brace. -/
def readBracedHex (start : Position) (c : Cursor) : Except Fault (Primitive × Cursor) :=
  let (digits, c') := c.advance.collect isHex
  match c'.current? with
  | none => .error { kind := .escapeEnd, span := c'.since c.position }
  | some x =>
    if x ≠ '\x7d' then .error { kind := .hexDigit, span := c'.single }
    else
      let after := c'.advance
      if digits = [] then .error { kind := .hexMissing, span := after.since c.position }
      else
        match charOfHex? digits with
        | none => .error { kind := .hexNoCharacter, span := c'.since c.next.position }
        | some char => .ok (.literal { span := after.since start, char }, after)

/-- A character by its number. The cursor is at the letter. -/
def readHex (start : Position) (letter : Char) (length : Nat) (c : Cursor) :
    Except Fault (Primitive × Cursor) :=
  let c := c.advance
  match c.current? with
  | none => .error { kind := .escapeEnd, span := c.here }
  | some x =>
    if x = '\x7b' then readBracedHex start c else readFixedHex start (letter = 'x') length c

/-- A named property of characters: one letter, or a name in braces. -/
def readProperty (start : Position) (c : Cursor) : Except Fault (Primitive × Cursor) :=
  let c := c.advance
  match c.current? with
  | none => .error { kind := .escapeEnd, span := c.here }
  | some x =>
    if x = '\x7b' then
      let (name, c) := c.advance.collect (· ≠ '\x7d')
      if c.atEnd then .error { kind := .escapeEnd, span := c.here }
      else .ok (.property (c.next.since start) (String.ofList name), c.next)
    else if x = '\\' then .error { kind := .propertyLetter, span := c.single }
    else .ok (.property (c.advance.since start) x.toString, c.advance)

def edgeOfName? : String → Option Edge
  | "start" => some .start
  | "end" => some .stop
  | "start-half" => some .startHalf
  | "end-half" => some .stopHalf
  | _ => none

/-- What a brace behind the sign of a word edge says. It is left for a repetition
if no letter comes next. -/
def readEdge (start : Position) (c : Cursor) : Except Fault (Option (Edge × Cursor)) :=
  let inside := c.advance
  let isNamePart (x : Char) : Bool := x.isAlpha || x = '-'
  match inside.current? with
  | none => .error { kind := .edgeEnd, span := inside.since start }
  | some x =>
    if isNamePart x then
      let (name, c') := inside.collect isNamePart
      if c'.current? ≠ some '\x7d' then
        .error { kind := .edgeUnclosed, span := c'.since c.position }
      else
        match edgeOfName? (String.ofList name) with
        | none => .error { kind := .edgeUnknown, span := c'.since inside.position }
        | some e => .ok (some (e, c'.next))
    else .ok none

/-- The escape of one letter or sign, which the cursor has passed. -/
def readSign (start : Position) (x : Char) (c : Cursor) : Except Fault (Primitive × Cursor) :=
  let span := c.since start
  if isEscapable x then .ok (.literal { span, char := x }, c)
  else
    match control? x, assertion? x with
    | some char, _ => .ok (.literal { span, char }, c)
    | none, some a =>
      if x = 'b' ∧ c.current? = some '\x7b' then do
        match ← readEdge start c with
        | some (e, c) => return (.assertion (c.since start) (.edge e), c)
        | none => return (.assertion span a, c)
      else .ok (.assertion span a, c)
    | none, none => .error { kind := .escapeUnknown, span }

/-- An escape. The cursor is at the backslash. -/
def read (c : Cursor) : Except Fault (Primitive × Cursor) :=
  let start := c.position
  let c := c.next
  match c.current? with
  | none => .error { kind := .escapeEnd, span := c.since start }
  | some x =>
    if x.isDigit then .error { kind := .backreference, span := c.next.since start }
    else if x = 'p' ∨ x = 'P' then readProperty start c
    else
      match hexLength? x, shorthand? x with
      | some length, _ => readHex start x length c
      | none, some (s, negated) => .ok (.shorthand (c.next.since start) s negated, c.next)
      | none, none => readSign start x c.next

end Escape

end Chip8.Regex
