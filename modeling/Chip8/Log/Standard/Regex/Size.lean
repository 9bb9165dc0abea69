import Chip8.Log.Standard.Regex.Normal
import Chip8.Log.Standard.Regex.Size.Characters
import Chip8.Log.Standard.Regex.Size.Words

/-!
# The size of expressions

An expression is taken only if the automaton for it, forwards and backwards, stays
within a limit. The automaton works on the bytes of a text in UTF-8. It is laid out
without being built, part by part in its order, for what a set takes depends on the
states before it.
-/

namespace Chip8.Regex

/-- A part that has been laid out, with all before it. Its last state may be one
that has several ways on: then what follows makes it larger. -/
structure Laid where
  layout : Layout
  forks : Bool := false

namespace Laid

/-- Leads on from the last state. -/
def follow (l : Laid) : Option Layout := if l.forks then l.layout.addBranch else some l.layout

/-- Leads on from the last state to more of the layout. -/
def followBy (l : Laid) (more : Layout) : Option Layout := do (← l.follow).grow more

/-- The same part `n` times more behind a part. -/
def chain (part : Layout → Option Laid) : Nat → Laid → Option Laid
  | 0, l => some l
  | n + 1, l => do chain part n (← part (← l.follow))

/-- The same part `n` times, or nothing. -/
def exactly (part : Layout → Option Laid) (n : Nat) (l : Layout) : Option Laid :=
  match n with
  | 0 => do return ⟨← l.addState, false⟩
  | n + 1 => do chain part n (← part l)

/-- The same part up to `n` times more, where each can be the last. -/
def optional (part : Layout → Option Laid) : Nat → Laid → Option Laid
  | 0, l => some l
  | n + 1, l => do
    optional part n (← part (← l.followBy ⟨1, 2 * Layout.branchSize⟩))

/-- A part any number of times. If it can fit where it takes no bytes, one more
state is needed to pass it by. -/
def anyTimes (part : Layout → Option Laid) (takesBytes : Bool) (l : Layout) : Option Laid := do
  if takesBytes then
    let l ← part (← l.addState)
    return ⟨← l.followBy ⟨0, Layout.branchSize⟩, true⟩
  else
    let l ← part l
    return ⟨← l.followBy ⟨3, 4 * Layout.branchSize⟩, false⟩

def repeated (part : Layout → Option Laid) (takesBytes : Bool) (bounds : Bounds) (l : Layout) :
    Option Laid :=
  match bounds.least, bounds.most with
  | 0, none => anyTimes part takesBytes l
  | 1, none => do
    return ⟨← (← part l).followBy ⟨1, Layout.branchSize⟩, true⟩
  | least, none => do
    let l ← part (← (← exactly part (least - 1) l).follow)
    return ⟨← l.followBy ⟨1, Layout.branchSize⟩, true⟩
  | 0, some 1 => do
    let l ← part (← l.addState)
    return ⟨← l.followBy ⟨1, 2 * Layout.branchSize⟩, false⟩
  | least, some most => do
    let l ← exactly part least l
    if least = most then return l
    else
      let l ← optional part (most - least) { l with layout := ← l.layout.addState }
      return ⟨← l.follow, false⟩

/-- One of several alternatives, with `n` others before it. The second of them
brings the states at which all begin and end. -/
def join (n : Nat) (l : Laid) : Option Laid := do
  return ⟨← l.followBy ⟨if n = 1 then 2 else 0, Layout.branchSize⟩, false⟩

/-- A part that is an alternative if others are before it. -/
def behind (n : Nat) (l : Laid) : Option Laid := if n = 0 then some l else l.join n

end Laid

namespace Expr

def words? : List (Expr Atom) → Option (List Words.Word)
  | [] => some []
  | atom (.text cs) :: es => do return cs.flatMap (bytesOf ·.toNat) :: (← words? es)
  | _ => none

def layOutAtom (d : Direction) (l : Layout) : Atom → Option Laid
  | .text cs => do return ⟨← l.grow ⟨(String.ofList cs).utf8ByteSize, 0⟩, false⟩
  | .one _ s => do return ⟨← Characters.layOut d s l, false⟩
  | .look _ => do return ⟨← l.addState, false⟩

/-- Lays out an expression behind what has been laid out before. If it is one of
several alternatives, `n` of them are before it. -/
def layOut (d : Direction) : Nat → Expr Atom → Layout → Option Laid
  | n, empty, l => do Laid.behind n ⟨← l.addState, false⟩
  | n, atom a, l => do Laid.behind n (← layOutAtom d l a)
  | n, seq e f, l =>
    match d with
    | .forward => do Laid.behind n (← layOut d 0 f (← (← layOut d 0 e l).follow))
    | .backward => do Laid.behind n (← layOut d 0 e (← (← layOut d 0 f l).follow))
  | n, alt e f, l =>
    match (if n = 0 then words? (e :: f.branches) else none) with
    | some words => do
      let words := match d with
        | .forward => words
        | .backward => words.map List.reverse
      return ⟨← l.grow (Words.layout words), false⟩
    | none => do layOut d (n + 1) f (← (← layOut d 0 e l).join n).layout
  | n, rep bounds e, l => do
    Laid.behind n (← Laid.repeated (layOut d 0 e) (e.shortest.any (0 < ·)) bounds l)
  | n, group _ e, l =>
    match d with
    | .forward => do
      let l ← layOut d 0 e (← l.addState)
      Laid.behind n ⟨← l.followBy ⟨1, 0⟩, false⟩
    | .backward => do Laid.behind n (← layOut d 0 e l)

/-- The whole automaton: what finds the place to begin at, the expression as the
part of number zero, and the end. -/
def automaton (d : Direction) (e : Expr Atom) : Option Layout := do
  let bound := match d with
    | .forward => e.startsText
    | .backward => e.endsText
  let l ← Layout.grow {} (if bound then ⟨1, 0⟩ else ⟨3, Layout.linkSize + 2 * Layout.branchSize⟩)
  let l ← layOut d 0 (group {} e) l
  l.followBy ⟨1, 0⟩

/-- Whether the automaton that reads in a direction stays within the limit. -/
def fitsIn (d : Direction) (e : Expr Atom) : Bool := (automaton d e).isSome

example : (automaton .forward (letter 'a')).map Layout.bytes = some (208 + 32) := by decide +kernel
example : (automaton .backward (rep { least := 0, most := none } (letter 'a'))).map Layout.bytes =
    some (144 + 72) := by decide +kernel

end Expr

end Chip8.Regex
