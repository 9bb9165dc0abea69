import Chip8.Address
import Chip8.Instruction.Decode

/-!
# Control flow

Where execution can go after an instruction, as far as the words alone tell. A
return continues behind its call, which the analysis has already counted as a
successor of the call, so a return is treated as any other instruction. The
register added by an indexed jump is unknown. It is a byte, so the jump can land
in 128 words from an even address on, and from an odd one in 129; 128 are taken
for all of them.
-/

namespace Chip8

inductive Flow where
  | next
  | jump (address : UInt16)
  | call (address : UInt16)
  | skip
  | indexedJump (address : UInt16)
deriving DecidableEq, Repr

def Instruction.flow : Instruction → Flow
  | .jump a => .jump a
  | .call a => .call a
  | .jumpIndexed a => .indexedJump a
  | .skipEqualByte .. | .skipUnequalByte .. | .skipEqualRegister .. | .skipUnequalRegister ..
  | .skipKeyDown _ | .skipKeyUp _ => .skip
  | _ => .next

/-- The number of words that an indexed jump is taken to land in. -/
def indexedJumpSpan : Nat := 128

/-- Candidate indices, in the order in which they are explored. They may lie
outside the image. -/
inductive Successors where
  | one (index : Int)
  | two (first second : Int)
  | span (base : Int)
deriving DecidableEq, Repr

namespace Successors

def toList : Successors → List Int
  | one i => [i]
  | two i j => [i, j]
  | span base => (List.range indexedJumpSpan).map fun k : Nat => base + (k : Int)

/-- The successors of an instruction that stands at the index `here`. -/
def of (instruction : Instruction) (here : Int) (load : UInt16) : Successors :=
  match instruction.flow with
  | .next => one (here + 1)
  | .jump a => one (Address.toIndex load a)
  | .call a => two (Address.toIndex load a) (here + 1)
  | .skip => two (here + 1) (here + 2)
  | .indexedJump a => span (Address.toIndex load a)

example : (of (.call 0x20A) 0 0x200).toList = [5, 1] := by decide
example : (of .subroutineReturn 7 0x200).toList = [8] := by decide

theorem length_toList_span (base : Int) : (span base).toList.length = indexedJumpSpan := by
  simp [toList]

end Successors

end Chip8
