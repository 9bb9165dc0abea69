import Chip8.Flow
import Chip8.Log
import Chip8.Walk

/-!
# Reachability

Which words of an image can be executed. The analysis walks the control-flow
graph of the words from the entry word, in the order in which successors are
listed. Words it does not reach are data.
-/

namespace Chip8

structure Reachability where
  /-- One mark for each word. -/
  reached : Array Bool := #[]
  /-- The reached indices, in the order of their first visit. -/
  order : Array Nat := #[]
  /-- How many candidates lay outside the image. -/
  dropped : Nat := 0
deriving DecidableEq, Repr, Inhabited

namespace Reachability

/-- Words outside the image are not reached. -/
def isReached (r : Reachability) (index : Nat) : Bool := r.reached[index]?.getD false

def count (r : Reachability) : Nat := r.order.size

def size (r : Reachability) : Nat := r.reached.size

/-- The successors of the word at an index, by its decoded instruction. -/
def successors (words : Array Word) (load : UInt16) (index : Nat) : List Int :=
  match words[index]? with
  | some w => (Successors.of (Instruction.decode w) index load).toList
  | none => []

/-- An index is a signed 64-bit number; an entry that is none starts no walk. -/
def entries (entry : Nat) : List Int :=
  if entry < 0x8000000000000000 then [(entry : Int)] else []

def startWalk (words : Array Word) (entry : Nat) : Walk :=
  Walk.start words.size (entries entry)

def finalWalk (words : Array Word) (entry : Nat) (load : UInt16) : Walk :=
  Walk.run (successors words load) (startWalk words entry)

def analyze (words : Array Word) (entry : Nat) (load : UInt16) : Reachability :=
  let walk := finalWalk words entry load
  { reached := walk.reached, order := walk.order, dropped := walk.dropped }

theorem size_analyze (words : Array Word) (entry : Nat) (load : UInt16) :
    (analyze words entry load).size = words.size := by
  simp [size, analyze, finalWalk, Walk.size_reached_run, startWalk, Walk.start]

def record (r : Reachability) : Log.Record :=
  ⟨.debug, .analysis, "reachability: " ++ toString r.count ++ " of " ++ toString r.size ++
    " words are code, " ++ toString r.dropped ++ " out-of-range targets dropped"⟩

end Reachability

end Chip8
