import Chip8.Log.Standard.Regex.Normal

/-!
# The meaning of patterns

What the parts of a pattern ask for depends on the flags in force at them. Flags
hold to the end of the group in which they are set. Without the Unicode flag a
class is a set of bytes, and it must not reach beyond ASCII, for then it would fit
parts of characters. What needs tables of Unicode properties is not known.
-/

namespace Chip8.Regex

structure Flags where
  ignoreCase : Bool := false
  multiLine : Bool := false
  dotAll : Bool := false
  unicode : Bool := true
  crlf : Bool := false
  swapGreed : Bool := false
deriving DecidableEq, Repr

namespace Flags

def set (f : Flags) (value : Bool) : Flag → Flags
  | .ignoreCase => { f with ignoreCase := value }
  | .multiLine => { f with multiLine := value }
  | .dotAll => { f with dotAll := value }
  | .unicode => { f with unicode := value }
  | .crlf => { f with crlf := value }
  | .swapGreed => { f with swapGreed := value }
  | .freeBlanks => f

def change (f : Flags) (changes : FlagChanges) : Flags :=
  changes.foldl (fun f change => f.set change.2 change.1) f

def alphabet (f : Flags) : Alphabet := if f.unicode then .characters else .bytes

end Flags

/-! ## Sets -/

namespace Shorthand

def named : Shorthand → NamedClass
  | digit => .digit
  | space => .space
  | word => .word

/-- Without the Unicode flag, the set for a shorthand. -/
def meaning (f : Flags) (span : Span) (s : Shorthand) (negated : Bool) : Except Fault Charset :=
  if f.unicode then .error { kind := .shorthandUnknown, span }
  else if negated then .error { kind := .invalidText, span }
  else .ok s.named.set

end Shorthand

namespace Property

/-- Names are compared without case, blanks, low lines, minus signs and a leading
`is`. -/
def normal (name : String) : List Char :=
  let cs := name.toList
  let rest := if (cs.take 2).map Char.toLower = ['i', 's'] then cs.drop 2 else cs
  (rest.filter fun c => c.toNat < 0x80 && c ≠ ' ' && c ≠ '_' && c ≠ '-').map Char.toLower

/-- No property is known by name. Three short names are those of values of one
property. -/
def fault (f : Flags) (span : Span) (name : String) : Fault :=
  if ¬ f.unicode then { kind := .characterNotAllowed, span }
  else if ["cf".toList, "sc".toList, "lc".toList].contains (normal name) then
    { kind := .propertyValueUnknown, span }
  else { kind := .propertyUnknown, span }

end Property

namespace Literal

/-- The character, unless it is a byte that is no character of its own. -/
def meaning (f : Flags) (l : Literal) : Except Fault Char :=
  if ¬ f.unicode ∧ l.isByte ∧ 0x7F < l.char.toNat then
    .error { kind := .invalidText, span := l.span }
  else .ok l.char

/-- The number of a character in a class. -/
def member (f : Flags) (l : Literal) : Except Fault Nat := do
  let c ← l.meaning f
  if ¬ f.unicode ∧ 0x7F < c.toNat then .error { kind := .characterNotAllowed, span := l.span }
  else return c.toNat

end Literal

namespace ClassSet

mutual

/-- Whether characters or named sets stand in a class itself, not only in classes
within it. -/
def namesCharacters : ClassSet → Bool
  | .literal _ | .range .. | .named .. => true
  | .union _ items => anyNamesCharacters items
  | _ => false

def anyNamesCharacters : List ClassSet → Bool
  | [] => false
  | item :: items => item.namesCharacters || anyNamesCharacters items

end

/-- The set of a class with both cases of its letters where case is ignored. A
class within it has them already. -/
def folded (f : Flags) (items : ClassSet) (span : Span) (s : Charset) : Except Fault Charset :=
  if ¬ f.ignoreCase then .ok s
  else if ¬ f.unicode then .ok s.withBothCases
  else if items.namesCharacters then .error { kind := .caseUnknown, span }
  else .ok s

/-- The set of a class, or all that is not in it. -/
def signed (f : Flags) (items : ClassSet) (span : Span) (negated : Bool) (s : Charset) :
    Except Fault Charset := do
  let s ← folded f items span s
  let s := if negated then s.complement f.alphabet else s
  if ¬ f.unicode ∧ ¬ s.isAscii then .error { kind := .invalidText, span }
  else return s

def combine (f : Flags) (op : ClassOp) (s t : Charset) : Charset :=
  match op with
  | .inter => s.inter t
  | .difference => s.difference f.alphabet t
  | .symmetricDifference => s.symmetricDifference f.alphabet t

mutual

def meaning (f : Flags) : ClassSet → Except Fault Charset
  | .empty _ => .ok {}
  | .literal l => (l.member f).map .single
  | .range _ low high => do
    let first ← low.member f
    let last ← high.member f
    return ⟨[⟨first, last⟩]⟩
  | .named span c negated => signed f (.named span c negated) span negated c.set
  | .shorthand span s negated => s.meaning f span negated
  | .property span name => .error (Property.fault f span name)
  | .bracketed span negated items => do signed f items span negated (← items.meaning f)
  | .union _ items => return .ofRanges (← rangesOf f items)
  | .op _ sign left right => do
    let s ← left.meaning f
    let t ← right.meaning f
    let t ← folded f right right.span t
    let s ← folded f left left.span s
    return combine f sign s t

def rangesOf (f : Flags) : List ClassSet → Except Fault (List Range)
  | [] => .ok []
  | item :: items => do
    let s ← item.meaning f
    let ranges ← rangesOf f items
    return s.ranges ++ ranges

end

end ClassSet

/-! ## Expressions -/

namespace Tree

def lineFeed : Charset := .single 0x0A

def lineEnds : Charset := ⟨[⟨0x0A, 0x0A⟩, ⟨0x0D, 0x0D⟩]⟩

def dotMeaning (f : Flags) (span : Span) : Except Fault (Expr Atom) :=
  if ¬ f.unicode then .error { kind := .invalidText, span }
  else
    let left : Charset := if f.dotAll then {} else if f.crlf then lineEnds else lineFeed
    .ok (.oneOf .characters (left.complement .characters))

/-- Without the Unicode flag only ASCII letters have two cases. -/
def literalMeaning (f : Flags) (l : Literal) : Except Fault (Expr Atom) := do
  let c ← l.meaning f
  if ¬ f.ignoreCase then return .letter c
  else if f.unicode then .error { kind := .caseUnknown, span := l.span }
  else if c.isAlpha then return .oneOf .bytes (Charset.single c.toNat).withBothCases
  else return .letter c

def lookOf (f : Flags) : Assertion → Look
  | .lineStart =>
    if f.multiLine then (if f.crlf then .returnStart else .lineStart) else .textStart
  | .lineEnd => if f.multiLine then (if f.crlf then .returnEnd else .lineEnd) else .textEnd
  | .textStart => .textStart
  | .textEnd => .textEnd
  | .edge e => if f.unicode then .anyEdge e else .asciiEdge e

def primitiveMeaning (f : Flags) : Primitive → Except Fault (Expr Atom)
  | .literal l => literalMeaning f l
  | .assertion _ a => .ok (.atom (.look (lookOf f a)))
  | .shorthand span s negated => (s.meaning f span negated).map (.oneOf f.alphabet)
  | .property span name => .error (Property.fault f span name)

def grouped (span : Span) (kind : GroupKind) (e : Expr Atom) : Expr Atom :=
  match kind with
  | .flagged _ => e
  | _ => .group span.start e

mutual

/-- What a pattern asks for, and the flags in force behind it. -/
def meaning (f : Flags) : Tree → Except Fault (Expr Atom × Flags)
  | .empty _ => .ok (.empty, f)
  | .flags _ changes => .ok (.empty, f.change changes)
  | .dot span => (dotMeaning f span).map (·, f)
  | .primitive p => (primitiveMeaning f p).map (·, f)
  | .bracketed span negated items => do
    let s ← ClassSet.signed f items span negated (← items.meaning f)
    return (.oneOf f.alphabet s, f)
  | .repetition _ bounds body => do
    let (e, f) ← body.meaning f
    return (.repeated { bounds with greedy := bounds.greedy != f.swapGreed } e, f)
  | .group span kind body => do
    let inside := match kind with
      | .flagged changes => f.change changes
      | _ => f
    let (e, _) ← body.meaning inside
    return (grouped span kind e, f)
  | .alternation _ branches => do
    let (es, f) ← meanings f branches
    return (.choice es, f)
  | .sequence _ items => do
    let (es, f) ← meanings f items
    return (.sequence es, f)

def meanings (f : Flags) : List Tree → Except Fault (List (Expr Atom) × Flags)
  | [] => .ok ([], f)
  | t :: ts => do
    let (e, f) ← t.meaning f
    let (es, f) ← meanings f ts
    return (e :: es, f)

end

end Tree

end Chip8.Regex
