import Chip8.Log.Standard.Regex.Tree

/-!
# Regular expressions

What a pattern asks of a text: given characters, one character out of a set, a
condition on the place between two characters, and these in sequence, in
alternatives and repeated. The places of a text are numbered from zero, and a set
of places is a number whose bits say which are in it. An expression leads from a
set of places to the set of places that are reached from them.
-/

namespace Chip8.Regex

/-- A condition on the place between two characters. -/
inductive Look where
  | textStart | textEnd
  | lineStart | lineEnd
  /-- As the two before, where a carriage return ends a line too. -/
  | returnStart | returnEnd
  | asciiEdge (e : Edge)
  /-- The edge of a word of any script. What is such a word is not known here. -/
  | anyEdge (e : Edge)
deriving DecidableEq, Repr

inductive Atom where
  /-- These characters in a row. -/
  | text (cs : List Char)
  | one (alphabet : Alphabet) (set : Charset)
  | look (l : Look)
deriving DecidableEq, Repr

inductive Expr (α : Type) where
  | empty
  | atom (a : α)
  | seq (first second : Expr α)
  | alt (first second : Expr α)
  | rep (bounds : Bounds) (body : Expr α)
  /-- A part with a number or a name. The place of its parenthesis tells it from
  all others. -/
  | group (start : Position) (body : Expr α)
deriving DecidableEq, Repr

/-- Puts an expression in the place of every atom. -/
def Expr.bind (f : α → Expr β) : Expr α → Expr β
  | empty => empty
  | atom a => f a
  | seq d e => seq (d.bind f) (e.bind f)
  | alt d e => alt (d.bind f) (e.bind f)
  | rep bounds e => rep bounds (e.bind f)
  | group start e => group start (e.bind f)

namespace Look

def isWordChar (c : Option Char) : Bool :=
  match c with
  | none => false
  | some c => NamedClass.word.set.contains c.toNat

def edgeHolds (e : Edge) (before after : Bool) : Bool :=
  match e with
  | .either => before != after
  | .neither => before == after
  | .start => !before && after
  | .stop => before && !after
  | .startHalf => !before
  | .stopHalf => !after

/-- Whether a condition holds between these characters. -/
def holds (before after : Option Char) : Look → Bool
  | textStart => before = none
  | textEnd => after = none
  | lineStart => before = none || before = some '\n'
  | lineEnd => after = none || after = some '\n'
  | returnStart =>
    before = none || before = some '\n' || (before = some '\r' && after != some '\n')
  | returnEnd =>
    after = none || after = some '\r' || (after = some '\n' && before != some '\r')
  | asciiEdge e => edgeHolds e (isWordChar before) (isWordChar after)
  | anyEdge _ => false

end Look

/-! ## Sets of places -/

abbrev Places := Nat

/-- The places that fit, given the characters on both sides. -/
def placesWhere (fits : Option Char → Option Char → Bool) : Option Char → List Char → Places
  | before, [] => (fits before none).toNat
  | before, c :: cs =>
    (fits before (some c)).toNat + 2 * placesWhere fits (some c) cs

/-- How an atom leads from places to places of one text: to the next place, or
nowhere else, where it fits. -/
inductive Move where
  | ahead (fit : Places)
  | stay (fit : Places)
deriving DecidableEq, Repr

def Move.apply (s : Places) : Move → Places
  | ahead fit => (s &&& fit) <<< 1
  | stay fit => s &&& fit

/-- Over the characters of a text that fit. -/
def Move.over (text : List Char) (fits : Char → Bool) : Move :=
  .ahead (placesWhere (fun _ after => after.any fits) none text)

def Atom.moves (text : List Char) : Atom → Expr Move
  | .text cs => cs.foldr (fun c e => .seq (.atom (.over text (· = c))) e) .empty
  | one _ set => .atom (.over text fun c => set.contains c.toNat)
  | look l => .atom (.stay (placesWhere (fun before after => l.holds before after) none text))

/-- Applies a step `n` times, or until it changes nothing and would change nothing more. -/
def settle (step : Places → Places) : Nat → Places → Places
  | 0, s => s
  | n + 1, s =>
    let t := step s
    if t = s then s else settle step n t

namespace Expr

/-- The places reached from given places. A repetition without end is given a
number of rounds, which suffices if there are no more places, for each round but
the last reaches a new one. -/
def reach (rounds : Nat) : Expr Move → Places → Places
  | empty, s => s
  | atom move, s => move.apply s
  | seq d e, s => e.reach rounds (d.reach rounds s)
  | alt d e, s => d.reach rounds s ||| e.reach rounds s
  | rep bounds e, s =>
    let more := match bounds.most with
      | none => rounds
      | some most => most - bounds.least
    settle (fun t => t ||| e.reach rounds t) more (settle (e.reach rounds) bounds.least s)
  | group _ e, s => e.reach rounds s

/-- Whether an expression fits some part of a text. -/
def isIn (e : Expr Atom) (text : List Char) : Bool :=
  (e.bind (Atom.moves text)).reach (text.length + 1) (1 <<< (text.length + 1) - 1) ≠ 0

def letter (c : Char) : Expr Atom := atom (.text [c])

example : (seq (letter 'a') (rep { least := 0, most := none } (letter 'b'))).isIn "xabb".toList =
    true := by decide
example : (seq (letter 'a') (atom (.look .textEnd))).isIn "xab".toList = false := by decide

end Expr

end Chip8.Regex
