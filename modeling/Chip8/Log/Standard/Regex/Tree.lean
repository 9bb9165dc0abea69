import Chip8.Log.Standard.Regex.Charset
import Chip8.Log.Standard.Regex.Fault

/-!
# Patterns as trees

The parts of a pattern as they are written, each with the span that it takes in
the text.
-/

namespace Chip8.Regex

structure Literal where
  span : Span
  char : Char
  /-- Whether it is written as the number of a byte. -/
  isByte : Bool := false
deriving DecidableEq, Repr

/-- The sets of characters that one letter stands for. -/
inductive Shorthand where
  | digit | space | word
deriving DecidableEq, Repr

/-- Where a word begins or ends, on either side. -/
inductive Edge where
  | either | neither | start | stop | startHalf | stopHalf
deriving DecidableEq, Repr

/-- What holds at a place between two characters. -/
inductive Assertion where
  | lineStart | lineEnd | textStart | textEnd
  | edge (e : Edge)
deriving DecidableEq, Repr

inductive Flag where
  | ignoreCase | multiLine | dotAll | swapGreed | unicode | crlf | freeBlanks
deriving DecidableEq, Repr

/-- The flags that are set and those that are cleared. -/
abbrev FlagChanges := List (Flag × Bool)

/-- What an escape stands for, or a plain character. -/
inductive Primitive where
  | literal (l : Literal)
  | assertion (span : Span) (a : Assertion)
  | shorthand (span : Span) (s : Shorthand) (negated : Bool)
  | property (span : Span) (name : String)
deriving DecidableEq, Repr

def Primitive.span : Primitive → Span
  | literal l => l.span
  | assertion span _ | shorthand span _ _ | property span _ => span

inductive ClassOp where
  | inter | difference | symmetricDifference
deriving DecidableEq, Repr

inductive ClassSet where
  | empty (span : Span)
  | literal (l : Literal)
  | range (span : Span) (first last : Literal)
  | named (span : Span) (c : NamedClass) (negated : Bool)
  | shorthand (span : Span) (s : Shorthand) (negated : Bool)
  | property (span : Span) (name : String)
  | bracketed (span : Span) (negated : Bool) (items : ClassSet)
  | union (span : Span) (items : List ClassSet)
  | op (span : Span) (op : ClassOp) (left right : ClassSet)

def ClassSet.span : ClassSet → Span
  | literal l => l.span
  | empty span | range span _ _ | named span _ _ | shorthand span _ _ | property span _
  | bracketed span _ _ | union span _ | op span _ _ _ => span

/-- How often something is repeated; without an upper bound if `most` is `none`. -/
structure Bounds where
  least : Nat
  most : Option Nat
  /-- Whether more rounds are tried before fewer. -/
  greedy : Bool := true
deriving DecidableEq, Repr

inductive GroupKind where
  | captured
  | named (span : Span) (name : String)
  | flagged (changes : FlagChanges)
deriving DecidableEq, Repr

inductive Tree where
  | empty (span : Span)
  | flags (span : Span) (changes : FlagChanges)
  | dot (span : Span)
  | primitive (p : Primitive)
  | bracketed (span : Span) (negated : Bool) (items : ClassSet)
  | repetition (span : Span) (bounds : Bounds) (body : Tree)
  | group (span : Span) (kind : GroupKind) (body : Tree)
  | alternation (span : Span) (branches : List Tree)
  | sequence (span : Span) (items : List Tree)

namespace Tree

def span : Tree → Span
  | primitive p => p.span
  | empty span | flags span _ | dot span | bracketed span _ _ | repetition span _ _
  | group span _ _ | alternation span _ | sequence span _ => span

/-- Whether something can be repeated. -/
def isRepeatable : Tree → Bool
  | empty _ | flags _ _ => false
  | _ => true

end Tree

mutual

/-- The first part of a class that lies more than `depth` levels deep. -/
def ClassSet.tooDeep? (depth : Nat) : ClassSet → Option Span
  | .bracketed span _ items => if depth = 0 then some span else items.tooDeep? (depth - 1)
  | .union span items => if depth = 0 then some span else ClassSet.anyTooDeep? (depth - 1) items
  | .op span _ left right =>
    if depth = 0 then some span
    else (left.tooDeep? (depth - 1)).or (right.tooDeep? (depth - 1))
  | _ => none

def ClassSet.anyTooDeep? (depth : Nat) : List ClassSet → Option Span
  | [] => none
  | item :: items => (item.tooDeep? depth).or (ClassSet.anyTooDeep? depth items)

end

mutual

/-- The first part of a pattern that lies more than `depth` levels deep. -/
def Tree.tooDeep? (depth : Nat) : Tree → Option Span
  | .bracketed span _ items => if depth = 0 then some span else items.tooDeep? (depth - 1)
  | .repetition span _ body | .group span _ body =>
    if depth = 0 then some span else body.tooDeep? (depth - 1)
  | .alternation span items | .sequence span items =>
    if depth = 0 then some span else Tree.anyTooDeep? (depth - 1) items
  | _ => none

def Tree.anyTooDeep? (depth : Nat) : List Tree → Option Span
  | [] => none
  | item :: items => (item.tooDeep? depth).or (Tree.anyTooDeep? depth items)

end

end Chip8.Regex
