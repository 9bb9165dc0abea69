/-!
# Room for automata

An automaton is laid out state by state. A state takes the same room as any other,
and more for each way that leads on from it if there are several. There is a limit
to the whole.
-/

namespace Chip8.Regex

/-- How far an automaton has been laid out. -/
structure Layout where
  states : Nat := 0
  /-- The bytes besides those that every state takes. -/
  extra : Nat := 0
deriving DecidableEq, Repr

namespace Layout

def limit : Nat := 10 * 1024 * 1024

/-- The bytes of a state. -/
def stateSize : Nat := 32

/-- The bytes of a way over a range of bytes, in a state with several such ways. -/
def linkSize : Nat := 8

/-- The bytes of a way that is always open, in a state with several such ways. -/
def branchSize : Nat := 4

def bytes (l : Layout) : Nat := stateSize * l.states + l.extra

instance : Add Layout := ⟨fun l m => ⟨l.states + m.states, l.extra + m.extra⟩⟩

/-- The layout with more to it, within the limit. -/
def grow (l more : Layout) : Option Layout :=
  if (l + more).bytes ≤ limit then some (l + more) else none

def addState (l : Layout) : Option Layout := l.grow ⟨1, 0⟩

def addBranch (l : Layout) : Option Layout := l.grow ⟨0, branchSize⟩

end Layout

/-- Automata read a text from its begin or from its end. -/
inductive Direction where
  | forward | backward
deriving DecidableEq, Repr

end Chip8.Regex
