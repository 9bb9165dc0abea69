import Chip8.Log.Standard.Regex.Token

/-!
# Reading patterns

The tokens of a pattern are put together from left to right. What is open at a
place is a stack: the groups around it, and within the innermost of them the
classes around it. A repetition takes the part before it.
-/

namespace Chip8.Regex

/-- What has been read of a group, or of the whole pattern, last one first. -/
structure Level where
  /-- The parenthesis and the kind of the group; there is none around the whole. -/
  opening : Option (Span × GroupKind) := none
  start : Position := {}
  branches : List Tree := []
  branchStart : Position := start
  items : List Tree := []

namespace Level

def push (l : Level) (t : Tree) : Level := { l with items := t :: l.items }

/-- The branch that ends at a position. -/
def branch (l : Level) (stop : Position) : Tree :=
  match l.items with
  | [] => .empty ⟨l.branchStart, stop⟩
  | [t] => t
  | items => .sequence ⟨l.branchStart, stop⟩ items.reverse

/-- Ends a branch and begins another behind the bar. -/
def split (l : Level) (bar : Span) : Level :=
  { l with branches := l.branch bar.start :: l.branches, branchStart := bar.stop, items := [] }

/-- Everything up to the position at which the level ends. -/
def close (l : Level) (stop : Position) : Tree :=
  match l.branches with
  | [] => l.branch stop
  | branches => .alternation ⟨l.start, stop⟩ (l.branch stop :: branches).reverse

end Level

/-- What has been read of a class, last one first. -/
structure ClassLevel where
  /-- The bracket with the signs that belong to it. -/
  opening : Span
  negated : Bool
  left : Option (ClassSet × ClassOp) := none
  start : Position
  items : List ClassSet := []

namespace ClassLevel

def push (l : ClassLevel) (item : ClassSet) : ClassLevel := { l with items := item :: l.items }

/-- The items since the last sign that combines sets. -/
def union (l : ClassLevel) : ClassSet :=
  match l.items with
  | [] => .empty ⟨l.start, l.start⟩
  | [item] => item
  | last :: rest =>
    .union ⟨((rest.getLast?).getD last).span.start, last.span.stop⟩ (last :: rest).reverse

/-- Everything read so far. Signs of equal rank combine from the left. -/
def close (l : ClassLevel) : ClassSet :=
  match l.left with
  | none => l.union
  | some (left, op) => .op ⟨left.span.start, l.union.span.stop⟩ op left l.union

def combine (l : ClassLevel) (op : ClassOp) (stop : Position) : ClassLevel :=
  { l with left := some (l.close, op), start := stop, items := [] }

end ClassLevel

structure Parser where
  level : Level := {}
  outer : List Level := []
  classes : List ClassLevel := []
  names : List (String × Span) := []

namespace Parser

def push (p : Parser) (t : Tree) : Parser := { p with level := p.level.push t }

/-- Takes the part before a repetition into it. -/
def repeatLast (p : Parser) (start stop : Position) (bounds : Except Fault Bounds) :
    Except Fault Parser :=
  let missing : Except Fault Parser := .error { kind := .nothingToRepeat, span := ⟨start, start⟩ }
  match p.level.items with
  | [] => missing
  | t :: items =>
    if t.isRepeatable then
      bounds.map fun bounds =>
        let whole := .repetition ⟨t.span.start, stop⟩ bounds t
        { p with level := { p.level with items := whole :: items } }
    else missing

def openGroup (p : Parser) (opening : Span) (kind : GroupKind) (body : Position) :
    Except Fault Parser :=
  let inside : Level := { opening := some (opening, kind), start := body }
  let opened : Parser := { p with level := inside, outer := p.level :: p.outer }
  match kind with
  | .named span name =>
    match p.names.lookup name with
    | some first => .error { kind := .nameRepeated, span, earlier := some first }
    | none => .ok { opened with names := (name, span) :: p.names }
  | _ => .ok opened

def closeGroup (p : Parser) (closing : Span) : Except Fault Parser :=
  match p.level.opening, p.outer with
  | some (opening, kind), around :: outer =>
    let group := .group ⟨opening.start, closing.stop⟩ kind (p.level.close closing.start)
    .ok { p with level := around.push group, outer }
  | _, _ => .error { kind := .groupUnopened, span := closing }

/-- Changes the innermost class. -/
def inClass (p : Parser) (f : ClassLevel → ClassLevel) : Parser :=
  match p.classes with
  | [] => p
  | l :: classes => { p with classes := f l :: classes }

def closeClass (p : Parser) (closing : Span) : Parser :=
  match p.classes with
  | [] => p
  | [l] =>
    { p with classes := [] }.push
      (.bracketed ⟨l.opening.start, closing.stop⟩ l.negated l.close)
  | l :: around :: classes =>
    let inner := .bracketed ⟨l.opening.start, closing.stop⟩ l.negated l.close
    { p with classes := around.push inner :: classes }

def step (p : Parser) : Token → Except Fault Parser
  | .part t => .ok (p.push t)
  | .repetition start stop bounds => p.repeatLast start stop bounds
  | .groupStart opening kind body => p.openGroup opening kind body
  | .groupEnd closing => p.closeGroup closing
  | .bar span => .ok { p with level := p.level.split span }
  | .classStart opening negated start items =>
    .ok { p with classes := { opening, negated, start, items := items.reverse } :: p.classes }
  | .classItem item => .ok (p.inClass (·.push item))
  | .classOp op stop => .ok (p.inClass (·.combine op stop))
  | .classEnd closing => .ok (p.closeClass closing)

/-- The whole pattern, if nothing is left open at its end. -/
def finish (p : Parser) (stop : Position) : Except Fault Tree :=
  match p.classes, p.level.opening with
  | l :: _, _ => .error { kind := .classUnclosed, span := l.opening }
  | [], some (opening, _) => .error { kind := .groupUnclosed, span := opening }
  | [], none => .ok (p.level.close stop)

/-- Every token takes at least one character, so `fuel` characters suffice. -/
def run (stop : Position) : Nat → Scanner → Parser → Except Fault Tree
  | 0, _, p => p.finish stop
  | fuel + 1, s, p => do
    match ← s.next? with
    | none => p.finish stop
    | some (token, s) => run stop fuel s (← p.step token)

end Parser

/-- The tree of a pattern. -/
def Tree.read (pattern : String) : Except Fault Tree := do
  let stop := pattern.toList.foldl Position.after {}
  let tree ← Parser.run stop pattern.length { cursor := .ofPattern pattern } {}
  match tree.tooDeep? nestingLimit with
  | some span => .error { kind := .nestingTooDeep, span }
  | none => return tree

end Chip8.Regex
