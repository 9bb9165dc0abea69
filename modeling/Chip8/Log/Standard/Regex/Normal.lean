import Chip8.Log.Standard.Regex.Expr

/-!
# Normal forms

Expressions are built so that equal demands look alike. A sequence leans to the
right, holds no sequence and nothing empty as a part, and no two texts behind each
other. Alternatives lean to the right as well; single characters and sets among
themselves become one set, and sequences that begin alike share their beginning.
What asks for no characters is not repeated more than once.
-/

namespace Chip8.Regex

namespace Alphabet

/-- The bytes that a character takes. -/
def width (a : Alphabet) (n : Nat) : Nat :=
  match a with
  | bytes => 1
  | characters => if n < 0x80 then 1 else if n < 0x800 then 2 else if n < 0x10000 then 3 else 4

end Alphabet

namespace Expr

/-! ## Sequences -/

/-- The parts of a sequence. -/
def items : Expr α → List (Expr α)
  | empty => []
  | seq d e => d :: e.items
  | e => [e]

def ofItems : List (Expr α) → Expr α
  | [] => empty
  | [e] => e
  | e :: rest => seq e (ofItems rest)

/-- Joins texts behind each other. -/
def joinTexts : List (Expr Atom) → List (Expr Atom)
  | [] => []
  | e :: rest =>
    match e, joinTexts rest with
    | atom (.text cs), atom (.text ds) :: rest => atom (.text (cs ++ ds)) :: rest
    | e, rest => e :: rest

def sequence (es : List (Expr Atom)) : Expr Atom := ofItems (joinTexts (es.flatMap items))

/-! ## Sets -/

/-- What fits no text. -/
def nothing : Expr Atom := atom (.one .bytes {})

def oneOf (a : Alphabet) (s : Charset) : Expr Atom :=
  if s.isEmpty then nothing
  else
    match s.single? with
    | some n => letter (Char.ofNat n)
    | none => atom (.one a s)

/-! ## Alternatives -/

def branches : Expr α → List (Expr α)
  | alt d e => d :: e.branches
  | e => [e]

def ofBranches : List (Expr Atom) → Expr Atom
  | [] => nothing
  | [e] => e
  | e :: rest => alt e (ofBranches rest)

/-- The range of a text that is a single character. -/
def letterRanges? : Expr Atom → Option (List Range)
  | atom (.text [c]) => some [⟨c.toNat, c.toNat⟩]
  | _ => none

def setRanges? : Expr Atom → Option (List Range)
  | atom (.one _ s) => some s.ranges
  | _ => none

/-- All ranges together, if there are some for each part. -/
def allRanges? (ranges? : Expr Atom → Option (List Range)) : List (Expr Atom) → Option (List Range)
  | [] => some []
  | e :: es => do return (← ranges? e) ++ (← allRanges? ranges? es)

def isSeq : Expr α → Bool
  | seq .. => true
  | _ => false

/-- What two lists begin with. -/
def commonStart [DecidableEq α] : List α → List α → List α
  | a :: as, b :: bs => if a = b then a :: commonStart as bs else []
  | _, _ => []

/-- What all sequences begin with, if there is nothing else than sequences. -/
def sharedStart : List (Expr Atom) → List (Expr Atom)
  | [] => []
  | e :: es =>
    if (e :: es).all isSeq then es.foldl (fun start d => commonStart start d.items) e.items else []

/-- Alternatives. To take out what is shared makes the parts smaller, so that
`fuel` need not exceed their number. -/
def choiceWithin : Nat → List (Expr Atom) → Expr Atom
  | fuel, es =>
    match es.flatMap branches with
    | [] => nothing
    | [e] => e
    | es =>
      match (allRanges? letterRanges? es).or (allRanges? setRanges? es), sharedStart es, fuel with
      | some ranges, _, _ => oneOf .characters (.ofRanges ranges)
      | none, [], _ | none, _, 0 => ofBranches es
      | none, start, fuel + 1 =>
        let ends := es.map fun e => sequence (e.items.drop start.length)
        sequence (start ++ [choiceWithin fuel ends])

/-- The number of atoms and operators. -/
def size : Expr α → Nat
  | empty | atom _ => 1
  | seq d e | alt d e => d.size + e.size + 1
  | rep _ e | group _ e => e.size + 1

def choice (es : List (Expr Atom)) : Expr Atom :=
  choiceWithin (es.foldl (fun n e => n + e.size) 0) es

/-! ## Lengths -/

/-- The fewest bytes that fit, if anything does. -/
def shortest : Expr Atom → Option Nat
  | empty | atom (.look _) => some 0
  | atom (.text cs) => some (String.ofList cs).utf8ByteSize
  | atom (.one a s) => s.ranges.head?.map fun r => a.width r.first
  | seq d e => do return (← d.shortest) + (← e.shortest)
  | alt d e => do return min (← d.shortest) (← e.shortest)
  | rep bounds e => e.shortest.map (bounds.least * ·)
  | group _ e => e.shortest

/-- Whether only places are asked for and never a character. -/
def isBlind : Expr Atom → Bool
  | empty | atom (.look _) => true
  | atom (.text cs) => cs.isEmpty
  | atom (.one ..) => false
  | seq d e | alt d e => d.isBlind && e.isBlind
  | rep bounds e => bounds.most.isSome && e.isBlind
  | group _ e => e.isBlind

/-! ## Repetitions -/

def repeated (bounds : Bounds) (e : Expr Atom) : Expr Atom :=
  let bounds :=
    if e.isBlind then
      { bounds with least := min bounds.least 1, most := some ((bounds.most.map (min · 1)).getD 1) }
    else bounds
  if bounds.most = some 0 ∧ bounds.least = 0 then empty
  else if bounds.most = some 1 ∧ bounds.least = 1 then e
  else rep bounds e

/-! ## Both ends -/

/-- Whether nothing fits that does not begin where the text begins. -/
def startsText : Expr Atom → Bool
  | atom (.look .textStart) => true
  | empty | atom _ => false
  | seq d e => d.startsText || (d.isBlind && e.startsText)
  | alt d e => d.startsText && e.startsText
  | rep bounds e => bounds.least ≠ 0 && e.startsText
  | group _ e => e.startsText

/-- Whether nothing fits that does not end where the text ends. -/
def endsText : Expr Atom → Bool
  | atom (.look .textEnd) => true
  | empty | atom _ => false
  | seq d e => e.endsText || (d.endsText && e.isBlind)
  | alt d e => d.endsText && e.endsText
  | rep bounds e => bounds.least ≠ 0 && e.endsText
  | group _ e => e.endsText

example : sequence [letter 'a', empty, letter 'b'] = atom (.text ['a', 'b']) := by decide
example : repeated { least := 2, most := none } (atom (.look .textEnd)) = atom (.look .textEnd) := by
  decide

end Expr

end Chip8.Regex
