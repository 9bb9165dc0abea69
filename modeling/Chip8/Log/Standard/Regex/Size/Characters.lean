import Chip8.Log.Standard.Regex.Encoding
import Chip8.Log.Standard.Regex.Size.Layout
import Std.Data.HashMap

/-!
# Room for sets

A set is laid out as the sequences of bytes for its characters. States that lead on
alike are shared as far as they are remembered. The memory is small: every state
has one place in it, which follows from where the state leads, and drives out what
was in that place.
-/

namespace Chip8.Regex.Characters

/-- A way over a range of bytes to the state with a number. -/
structure Link where
  bytes : Range
  target : Nat
deriving DecidableEq, Repr

/-! ## The memory -/

def seed : UInt64 := 14695981039346656037

def mix (h : UInt64) (n : Nat) : UInt64 := (h ^^^ UInt64.ofNat n) * 1099511628211

def mixAll (ns : List Nat) : UInt64 := ns.foldl mix seed

/-- What is remembered in each place, with the number of its state. -/
structure Memory (κ : Type) where
  places : Nat
  held : Std.HashMap Nat (κ × Nat) := {}

namespace Memory

def place (m : Memory κ) (h : UInt64) : Nat := h.toNat % m.places

def find? [DecidableEq κ] (m : Memory κ) (h : UInt64) (key : κ) : Option Nat :=
  match m.held[m.place h]? with
  | some (k, state) => if k = key then some state else none
  | none => none

def put (m : Memory κ) (h : UInt64) (key : κ) (state : Nat) : Memory κ :=
  { m with held := m.held.insert (m.place h) (key, state) }

end Memory

/-! ## Backward

The states lead from the end of a sequence to its begin, so that the first byte
leads to the end of the set. -/

structure Backward where
  layout : Layout
  memory : Memory Link := { places := 1000 }

namespace Backward

/-- The state before a state, over a range of bytes. -/
def link (b : Backward) (l : Link) : Option (Backward × Nat) :=
  let h := mixAll [l.target, l.bytes.first, l.bytes.last]
  match b.memory.find? h l with
  | some state => some (b, state)
  | none => do
    let state := b.layout.states
    return (⟨← b.layout.addState, b.memory.put h l state⟩, state)

/-- The states for a sequence, up to the state with a number. -/
def chain : List Range → Backward → Nat → Option Backward
  | [], b, _ => some b
  | r :: rest, b, target => do
    let (b, state) ← b.link ⟨r, target⟩
    chain rest b state

def add (finish : Nat) (b : Backward) (sequence : List Range) : Option Backward := do
  let b ← chain sequence b finish
  return { b with layout := ← b.layout.addBranch }

def layOut (s : Charset) (l : Layout) : Option Layout := do
  let l ← l.grow ⟨2, 0⟩
  let b ← s.encodings.foldlM (add (l.states - 1)) { layout := l }
  return b.layout

end Backward

/-! ## Forward

The sequences come in order, so that only the last one is open: at each of its
places wait the links for the sequences before it. -/

/-- A place in the last sequence: the finished links, last one first, and the
range of bytes that is open. -/
structure Waiting where
  links : List Link := []
  last : Option Range := none

namespace Waiting

/-- The links, if the open range leads to a state. -/
def close (w : Waiting) (target : Nat) : List Link :=
  match w.last with
  | none => w.links
  | some r => ⟨r, target⟩ :: w.links

end Waiting

structure Forward where
  layout : Layout
  memory : Memory (List Link) := { places := 10000 }

namespace Forward

/-- The state with these links. -/
def link (f : Forward) (links : List Link) : Option (Forward × Nat) :=
  let h := mixAll (links.reverse.flatMap fun l => [l.bytes.first, l.bytes.last, l.target])
  match f.memory.find? h links with
  | some state => some (f, state)
  | none => do
    let state := f.layout.states
    let layout ← f.layout.grow ⟨1, Layout.linkSize * links.length⟩
    return (⟨layout, f.memory.put h links state⟩, state)

/-- The state for the first of the open places, which lead to the state with a
number. -/
def close (finish : Nat) : List Waiting → Forward → Option (Forward × Nat)
  | [], f => some (f, finish)
  | w :: deeper, f => do
    let (f, target) ← close finish deeper f
    f.link (w.close target)

/-- Opens a sequence. What it shares with the last one stays open. -/
def add (finish : Nat) : List Waiting → List Range → Forward → Option (Forward × List Waiting)
  | w :: deeper, r :: rest, f => do
    if w.last = some r then
      let (f, deeper) ← add finish deeper rest f
      return (f, w :: deeper)
    else
      let (f, target) ← close finish deeper f
      return (f, ⟨w.close target, some r⟩ :: rest.map fun r => { last := some r })
  | [], rest, f => some (f, rest.map fun r => { last := some r })
  | waiting, [], f => some (f, waiting)

def layOut (s : Charset) (l : Layout) : Option Layout := do
  let finish := l.states
  let f : Forward := { layout := ← l.addState }
  let (f, waiting) ← s.encodings.foldlM (fun (f, waiting) sequence => add finish waiting sequence f)
    (f, [{}])
  let (f, _) ← close finish waiting f
  return f.layout

end Forward

/-- A set of ASCII characters takes one state and its end. -/
def layOut (d : Direction) (s : Charset) (l : Layout) : Option Layout :=
  if s.isAscii then l.grow ⟨2, Layout.linkSize * s.ranges.length⟩
  else
    match d with
    | .forward => Forward.layOut s l
    | .backward => Backward.layOut s l

end Chip8.Regex.Characters
