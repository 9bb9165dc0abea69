import Chip8.Log.Standard.Regex.Cursor

/-!
# Faults in patterns

Why a text is no pattern, with the part of it that is at fault. A fault is shown
below the pattern, with marks under that part. If the pattern has several lines
these are numbered, and a part that goes over a line break is told in words.
-/

namespace Chip8.Regex

def nestingLimit : Nat := 250

inductive FaultKind where
  | classEscape | classRangeOrder | classRangeBound | classUnclosed
  | countMissing | countTooLarge | countOrder | countUnclosed | nothingToRepeat
  | escapeEnd | escapeUnknown | hexMissing | hexNoCharacter | hexDigit
  | flagUnknown | flagRepeated | negationRepeated | negationDangling | flagsEnd
  | nameMissing | nameCharacter | nameEnd | nameRepeated
  | groupUnclosed | groupUnopened | nestingTooDeep
  | edgeUnclosed | edgeUnknown | edgeEnd
  | propertyLetter | backreference | lookAround
  | invalidText | characterNotAllowed
  | propertyUnknown | propertyValueUnknown | shorthandUnknown | caseUnknown
deriving DecidableEq, Repr

def FaultKind.message : FaultKind → String
  | classEscape => "invalid escape sequence found in character class"
  | classRangeOrder => "invalid character class range, the start must be <= the end"
  | classRangeBound => "invalid range boundary, must be a literal"
  | classUnclosed => "unclosed character class"
  | countMissing => "repetition quantifier expects a valid decimal"
  | countTooLarge => "decimal literal invalid"
  | countOrder => "invalid repetition count range, the start must be <= the end"
  | countUnclosed => "unclosed counted repetition"
  | nothingToRepeat => "repetition operator missing expression"
  | escapeEnd => "incomplete escape sequence, reached end of pattern prematurely"
  | escapeUnknown => "unrecognized escape sequence"
  | hexMissing => "hexadecimal literal empty"
  | hexNoCharacter => "hexadecimal literal is not a Unicode scalar value"
  | hexDigit => "invalid hexadecimal digit"
  | flagUnknown => "unrecognized flag"
  | flagRepeated => "duplicate flag"
  | negationRepeated => "flag negation operator repeated"
  | negationDangling => "dangling flag negation operator"
  | flagsEnd => "expected flag but got end of regex"
  | nameMissing => "empty capture group name"
  | nameCharacter => "invalid capture group character"
  | nameEnd => "unclosed capture group name"
  | nameRepeated => "duplicate capture group name"
  | groupUnclosed => "unclosed group"
  | groupUnopened => "unopened group"
  | nestingTooDeep =>
    "exceed the maximum number of nested parentheses/brackets (" ++ toString nestingLimit ++ ")"
  | edgeUnclosed =>
    "special word boundary assertion is either unclosed or contains an invalid character"
  | edgeUnknown =>
    "unrecognized special word boundary assertion, valid choices are: " ++
      "start, end, start-half or end-half"
  | edgeEnd =>
    "found either the beginning of a special word boundary or a bounded repetition on a \\b " ++
      "with an opening brace, but no closing brace"
  | propertyLetter => "invalid Unicode character class"
  | backreference => "backreferences are not supported"
  | lookAround => "look-around, including look-ahead and look-behind, is not supported"
  | invalidText => "pattern can match invalid UTF-8"
  | characterNotAllowed => "Unicode not allowed here"
  | propertyUnknown => "Unicode property not found"
  | propertyValueUnknown => "Unicode property value not found"
  | shorthandUnknown =>
    "Unicode-aware Perl class not found (make sure the unicode-perl feature is enabled)"
  | caseUnknown =>
    "Unicode-aware case insensitivity matching is not available " ++
      "(make sure the unicode-case feature is enabled)"

structure Fault where
  kind : FaultKind
  span : Span
  /-- The part that the one at fault repeats. -/
  earlier : Option Span := none
deriving DecidableEq, Repr

namespace Fault

/-- The spans of a fault in the order of the pattern. -/
def spans (f : Fault) : List Span :=
  match f.earlier with
  | none => [f.span]
  | some e => if f.span.start.precedes e.start then [f.span, e] else [e, f.span]

/-- The marks under one line for the spans in it, from a column on. An empty span
has a mark too. -/
def marks : Nat → List Span → List Char
  | _, [] => []
  | column, s :: spans =>
    let width := max 1 (s.stop.column - s.start.column)
    List.replicate (s.start.column - column) ' ' ++ List.replicate width '^' ++
      marks (max column s.start.column + width) spans

def blanks (n : Nat) : String := String.ofList (List.replicate n ' ')

/-- The lines of a pattern. A line break at the end begins no line. -/
def lines (pattern : List Char) : List (List Char) :=
  let parts := pattern.splitOn '\n'
  let whole := parts.dropLast.map fun l => if l.getLast? = some '\r' then l.dropLast else l
  match parts.getLast? with
  | none | some [] => whole
  | some last => whole ++ [last]

/-- The lines with their numbers, each with the marks that belong below it. -/
def marked (f : Fault) (lead : Nat → String) (width : Nat) (pattern : List Char) : List String :=
  (lines pattern).zipIdx.flatMap fun (line, i) =>
    let inLine := f.spans.filter fun s => s.start.line = i + 1 && s.stop.line = i + 1
    (lead (i + 1) ++ String.ofList line) ::
      if inLine = [] then [] else [blanks width ++ String.ofList (marks 1 inLine)]

/-- A span over several lines in words. -/
def inWords (s : Span) : String :=
  "on line " ++ toString s.start.line ++ " (column " ++ toString s.start.column ++
    ") through line " ++ toString s.stop.line ++ " (column " ++ toString (s.stop.column - 1) ++ ")"

def divider : String := String.ofList (List.replicate 79 '~')

/-- The width of the line numbers. A line break at the end counts as beginning a
line. -/
def numberWidth (pattern : List Char) : Nat := (toString (pattern.splitOn '\n').length).length

def shown (f : Fault) (pattern : List Char) : List String :=
  if '\n' ∈ pattern then
    let width := numberWidth pattern
    let lead (n : Nat) := blanks (width - (toString n).length) ++ toString n ++ ": "
    let long := f.spans.filter fun s => s.start.line ≠ s.stop.line
    divider :: f.marked lead (width + 2) pattern ++ divider :: long.map inWords
  else f.marked (fun _ => blanks 4) 4 pattern

def message (f : Fault) (pattern : String) : String :=
  String.join
    (("regex parse error:" :: f.shown pattern.toList).map (· ++ "\n")) ++
    "error: " ++ f.kind.message

example : message ⟨.groupUnopened, ⟨⟨1, 2⟩, ⟨1, 3⟩⟩, none⟩ "a)" =
    "regex parse error:\n    a)\n     ^\nerror: unopened group" := by decide

end Fault

end Chip8.Regex
