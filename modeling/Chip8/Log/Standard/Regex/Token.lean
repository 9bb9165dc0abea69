import Chip8.Log.Standard.Regex.Escape
import Chip8.Log.Standard.Letter

/-!
# The parts of a pattern in a row

A scanner finds the next part of a pattern: a character, an escape, a repetition,
the start or the end of a group or of a class, or what stands within a class. It
knows how many classes are open, for there most signs are plain characters, and
whether blanks are free in each group around.
-/

namespace Chip8.Regex

inductive Token where
  | part (t : Tree)
  | repetition (start stop : Position) (bounds : Except Fault Bounds)
  /-- The span is that of the parenthesis, `body` is where the contents begin. -/
  | groupStart (span : Span) (kind : GroupKind) (body : Position)
  | groupEnd (span : Span)
  | bar (span : Span)
  | classStart (span : Span) (negated : Bool) (body : Position) (items : List ClassSet)
  | classItem (item : ClassSet)
  | classOp (op : ClassOp) (stop : Position)
  | classEnd (span : Span)

/-! ## Repetitions -/

namespace Bounds

/-- A number between blanks. The cursor moves on even where there is none. -/
def readNumber (c : Cursor) : Except Fault Nat × Cursor :=
  let c := c.dropWhile isBlank
  let (digits, c') := c.collect Char.isDigit
  let (_, after) := c'.collect isBlank
  let value := digits.foldl (fun n d => 10 * n + (d.toNat - '0'.toNat)) 0
  if digits = [] then (.error { kind := .countMissing, span := c'.since c.position }, after)
  else if UInt32.size ≤ value then
    (.error { kind := .countTooLarge, span := c'.since c.position }, after)
  else (.ok value, after)

/-- A question mark behind a repetition asks for few rounds. -/
def readGreed (bounds : Bounds) (c : Cursor) : Bounds × Cursor :=
  if c.current? = some '?' then ({ bounds with greedy := false }, c.next) else (bounds, c)

/-- The end of a repetition in braces. -/
def readEnd (start : Position) (bounds : Bounds) (c : Cursor) : Except Fault (Bounds × Cursor) :=
  if c.current? ≠ some '\x7d' then .error { kind := .countUnclosed, span := c.since start }
  else
    let (bounds, c) := readGreed bounds c.advance
    match bounds.most with
    | some most =>
      if most < bounds.least then .error { kind := .countOrder, span := c.since start }
      else .ok (bounds, c)
    | none => .ok (bounds, c)

/-- What follows the comma in braces. -/
def readMost (start : Position) (least : Except Fault Nat) (c : Cursor) :
    Except Fault (Bounds × Cursor) :=
  match c.current?, least with
  | none, _ => .error { kind := .countUnclosed, span := c.since start }
  | some _, .error f => .error f
  | some x, .ok least =>
    if x = '\x7d' then readEnd start { least, most := none } c
    else
      match readNumber c with
      | (.error f, _) => .error f
      | (.ok most, c) => readEnd start { least, most := some most } c

/-- A repetition in braces. The cursor is at the opening brace. -/
def read (c : Cursor) : Except Fault (Bounds × Cursor) :=
  let start := c.position
  let c := c.advance
  if c.atEnd then .error { kind := .countUnclosed, span := c.since start }
  else
    match readNumber c with
    | (least, c) =>
      match c.current?, least with
      | none, _ => .error { kind := .countUnclosed, span := c.since start }
      | some ',', least => readMost start least c.advance
      | some _, .error f => .error f
      | some _, .ok count => readEnd start { least := count, most := some count } c

def ofSign? : Char → Option Bounds
  | '?' => some { least := 0, most := some 1 }
  | '*' => some { least := 0, most := none }
  | '+' => some { least := 1, most := none }
  | _ => none

end Bounds

/-! ## Groups -/

namespace Flag

/-- A flag, or `none` for the sign that clears the flags after it. -/
def ofSign? : Char → Option (Option Flag)
  | '-' => some none
  | 'i' => some (some ignoreCase)
  | 'm' => some (some multiLine)
  | 's' => some (some dotAll)
  | 'U' => some (some swapGreed)
  | 'u' => some (some unicode)
  | 'R' => some (some crlf)
  | 'x' => some (some freeBlanks)
  | _ => none

def changes (set : Bool) : List (Option Flag) → FlagChanges
  | [] => []
  | none :: rest => changes false rest
  | some f :: rest => (f, set) :: changes set rest

/-- Reads flags up to a colon or a closing parenthesis. Those already read come
last one first. -/
def readSigns (earlier : List (Span × Option Flag)) (c : Cursor) :
    Except Fault (FlagChanges × Cursor) :=
  match h : c.rest with
  | [] => .error { kind := .flagsEnd, span := c.here }
  | x :: _ =>
    if x = ':' ∨ x = ')' then
      match earlier with
      | (span, none) :: _ => .error { kind := .negationDangling, span }
      | _ => .ok (changes true (earlier.reverse.map (·.2)), c)
    else
      match ofSign? x with
      | none => .error { kind := .flagUnknown, span := c.single }
      | some sign =>
        match earlier.find? (·.2 = sign) with
        | some (first, _) =>
          .error
            { kind := if sign = none then .negationRepeated else .flagRepeated
              span := c.single
              earlier := some first }
        | none =>
          have := c.length_next_lt (by simp [h])
          readSigns ((c.single, sign) :: earlier) c.next
termination_by c.rest.length

end Flag

/-- A name begins with a letter or a low line. -/
def isNameStart (c : Char) : Bool := c = '_' || isLetter c

def isNamePart (c : Char) : Bool :=
  c = '_' || c = '.' || c = '[' || c = ']' || isLetter c || isNumeral c

/-- The name of a group. The cursor is behind the opening angle. -/
def readName (c : Cursor) : Except Fault (GroupKind × Cursor) :=
  let first := c.rest.takeWhile (· ≠ '>')
  let named := c.dropWhile (· ≠ '>')
  let bad :=
    match c.current? with
    | some x => if isNameStart x then c.next.dropWhile isNamePart else c
    | none => c
  if first = [] then
    if c.atEnd then .error { kind := .nameEnd, span := c.here }
    else .error { kind := .nameMissing, span := c.here }
  else if bad.position.precedes named.position then
    .error { kind := .nameCharacter, span := bad.single }
  else if named.atEnd then .error { kind := .nameEnd, span := named.here }
  else .ok (.named (named.since c.position) (String.ofList first), named.next)

/-- The start of a group, or flags for the rest of the group around. The cursor is
at the parenthesis. -/
def readGroup (c : Cursor) : Except Fault (Token × Cursor) :=
  let opening := c.single
  let c := c.advance
  let look := ["?=", "?!", "?<=", "?<!"].findSome? fun sign => c.drop? sign.toList
  let name := (c.drop? "?P<".toList).or (c.drop? "?<".toList)
  match look, name, c.drop? ['?'] with
  | some c, _, _ => .error { kind := .lookAround, span := c.since opening.start }
  | none, some c, _ => do
    let (kind, c) ← readName c
    return (.groupStart opening kind c.position, c)
  | none, none, some inside =>
    if inside.atEnd then .error { kind := .groupUnclosed, span := opening }
    else do
      let (changes, c') ← Flag.readSigns [] inside
      if c'.current? = some ':' then
        return (.groupStart opening (.flagged changes) c'.next.position, c'.next)
      else if changes = [] then .error { kind := .nothingToRepeat, span := c.here }
      else return (.part (.flags (c'.next.since opening.start) changes), c'.next)
  | none, none, none => .ok (.groupStart opening .captured c.position, c)

/-! ## Classes -/

namespace ClassSet

def ofPrimitive : Primitive → Except Fault ClassSet
  | .literal l => .ok (.literal l)
  | .shorthand span s negated => .ok (.shorthand span s negated)
  | .property span name => .ok (.property span name)
  | .assertion span _ => .error { kind := .classEscape, span }

def boundOf : Primitive → Except Fault Literal
  | .literal l => .ok l
  | p => .error { kind := .classRangeBound, span := p.span }

/-- Minus signs at the start of a class stand for themselves. -/
def readMinuses (c : Cursor) : List ClassSet × Cursor :=
  match h : c.rest with
  | '-' :: _ =>
    have := c.length_advance_lt (by simp [h])
    let (items, c') := readMinuses c.advance
    (.literal { span := c.single, char := '-' } :: items, c')
  | _ => ([], c)
termination_by c.rest.length

/-- The start of a class. A closing bracket at once after it stands for itself. -/
def readStart (c : Cursor) : Except Fault (Token × Cursor) :=
  let start := c.position
  let unclosed (c : Cursor) : Except Fault (Token × Cursor) :=
    .error { kind := .classUnclosed, span := c.since start }
  let c := c.advance
  let negated := c.current? = some '^'
  let c := if negated then c.advance else c
  if c.atEnd then unclosed c
  else
    let body := c.position
    let (minuses, c) := readMinuses c
    if c.atEnd then .error { kind := .classUnclosed, span := ⟨start, start⟩ }
    else if minuses = [] ∧ c.current? = some ']' then
      let bracket := .literal { span := c.single, char := ']' }
      let c := c.advance
      if c.atEnd then unclosed c
      else .ok (.classStart (c.since start) negated body [bracket], c)
    else .ok (.classStart (c.since start) negated body minuses, c)

/-- A named class, if what stands in brackets with colons is the name of one. -/
def readNamed? (c : Cursor) : Option (ClassSet × Cursor) := do
  let inside ← c.drop? "[:".toList
  let negated := inside.current? = some '^'
  let inside := if negated then inside.next else inside
  let name := inside.rest.takeWhile (· ≠ ':')
  let after ← (inside.dropWhile (· ≠ ':')).drop? ":]".toList
  let found ← NamedClass.ofName? (String.ofList name)
  return (.named (after.since c.position) found negated, after)

def readPrimitive (c : Cursor) : Except Fault (Primitive × Cursor) :=
  match c.current? with
  | some '\\' => Escape.read c
  | some char => .ok (.literal { span := c.single, char }, c.next)
  | none => .error { kind := .escapeEnd, span := c.here }

/-- A character, an escape or a range. There is none if the pattern ends first. -/
def readItem? (c : Cursor) : Except Fault (Option (ClassSet × Cursor)) := do
  let (first, c) ← readPrimitive c
  let c := c.dropBlanks
  if c.atEnd then return none
  else if c.current? ≠ some '-' ∨ c.ahead? = some ']' ∨ c.ahead? = some '-' then
    return some (← ofPrimitive first, c)
  else
    let c := c.advance
    if c.atEnd then return none
    else
      let (last, c) ← readPrimitive c
      let span : Span := ⟨first.span.start, last.span.stop⟩
      let low ← boundOf first
      let high ← boundOf last
      if high.char < low.char then .error { kind := .classRangeOrder, span }
      else return some (.range span low high, c)

def opOfSigns? : Option Char → Option Char → Option ClassOp
  | some '&', some '&' => some .inter
  | some '-', some '-' => some .difference
  | some '~', some '~' => some .symmetricDifference
  | _, _ => none

end ClassSet

/-! ## The scanner -/

structure Scanner where
  cursor : Cursor
  /-- Whether blanks are free in the groups around, innermost first. -/
  outer : List Bool := []
  /-- The number of open classes. -/
  classes : Nat := 0

namespace Scanner

def movedTo (s : Scanner) (c : Cursor) : Scanner := { s with cursor := c }

/-- Enters and leaves groups and classes, and changes whether blanks are free. -/
def entering (s : Scanner) (c : Cursor) : Token → Scanner
  | .groupStart _ kind _ =>
    let free :=
      match kind with
      | .flagged changes => (changes.lookup .freeBlanks).getD c.freeBlanks
      | _ => c.freeBlanks
    { s with cursor := { c with freeBlanks := free }, outer := c.freeBlanks :: s.outer }
  | .groupEnd _ =>
    { s with
      cursor := { c with freeBlanks := s.outer.head?.getD c.freeBlanks }
      outer := s.outer.tail }
  | .part (.flags _ changes) =>
    s.movedTo { c with freeBlanks := (changes.lookup .freeBlanks).getD c.freeBlanks }
  | .classStart .. => { s with cursor := c, classes := s.classes + 1 }
  | .classEnd _ => { s with cursor := c, classes := s.classes - 1 }
  | _ => s.movedTo c

/-- What comes next outside of classes. -/
def readOutside (c : Cursor) (x : Char) : Except Fault (Token × Cursor) :=
  match x, Bounds.ofSign? x with
  | _, some bounds =>
    let (bounds, after) := bounds.readGreed c.next
    .ok (.repetition c.position after.position (.ok bounds), after)
  | '(', _ => readGroup c
  | ')', _ => .ok (.groupEnd c.single, c.next)
  | '|', _ => .ok (.bar c.single, c.next)
  | '[', _ => ClassSet.readStart c
  | '\x7b', _ =>
    match Bounds.read c with
    | .error f => .ok (.repetition c.position c.position (.error f), c.next)
    | .ok (bounds, after) => .ok (.repetition c.position after.position (.ok bounds), after)
  | '\\', _ => do
    let (p, c) ← Escape.read c
    return (.part (.primitive p), c)
  | '.', _ => .ok (.part (.dot c.single), c.next)
  | '^', _ => .ok (.part (.primitive (.assertion c.single .lineStart)), c.next)
  | '$', _ => .ok (.part (.primitive (.assertion c.single .lineEnd)), c.next)
  | char, _ => .ok (.part (.primitive (.literal { span := c.single, char })), c.next)

/-- What comes next within a class. -/
def readInside? (c : Cursor) : Except Fault (Option (Token × Cursor)) :=
  match ClassSet.opOfSigns? c.current? c.second?, c.current? with
  | some op, _ => .ok (some (.classOp op c.next.next.position, c.next.next))
  | none, some ']' => .ok (some (.classEnd c.single, c.next))
  | none, some '[' =>
    match ClassSet.readNamed? c with
    | some (item, c) => .ok (some (.classItem item, c))
    | none => (ClassSet.readStart c).map some
  | none, _ => do
    match ← ClassSet.readItem? c with
    | some (item, c) => return some (.classItem item, c)
    | none => return none

/-- The next token, or `none` at the end of the pattern. -/
def next? (s : Scanner) : Except Fault (Option (Token × Scanner)) :=
  let c := s.cursor.dropBlanks
  match c.current?, s.classes with
  | none, _ => .ok none
  | some x, 0 => do
    let (token, c) ← readOutside c x
    return some (token, s.entering c token)
  | some _, _ => do
    match ← readInside? c with
    | some (token, c) => return some (token, s.entering c token)
    | none => return none

end Scanner

end Chip8.Regex
