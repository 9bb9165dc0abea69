import Chip8.Word

/-!
# Instructions

Memory holds no type: any word can be read as an instruction. Those that the
machine does not assign are kept whole, so no word is lost by decoding.
-/

namespace Chip8

/-- The operations of `8XYN`. -/
inductive AluOp where
  | move | or | and | xor | add | sub | shiftRight | reverseSub | shiftLeft
deriving DecidableEq, Repr

namespace AluOp

def ofNibble? (n : UInt8) : Option AluOp :=
  match n.toNat with
  | 0x0 => some move | 0x1 => some or | 0x2 => some and | 0x3 => some xor
  | 0x4 => some add | 0x5 => some sub | 0x6 => some shiftRight
  | 0x7 => some reverseSub | 0xE => some shiftLeft
  | _ => none

def nibble : AluOp → UInt8
  | move => 0x0 | or => 0x1 | and => 0x2 | xor => 0x3
  | add => 0x4 | sub => 0x5 | shiftRight => 0x6
  | reverseSub => 0x7 | shiftLeft => 0xE

theorem ofNibble?_nibble (op : AluOp) : ofNibble? op.nibble = some op := by
  cases op <;> rfl

end AluOp

/-- Addresses and immediates are what the word holds, not what they refer to. -/
inductive Instruction where
  | clearScreen
  | subroutineReturn
  | machineCall (address : UInt16)
  | jump (address : UInt16)
  | call (address : UInt16)
  | skipEqualByte (x : Register) (byte : UInt8)
  | skipUnequalByte (x : Register) (byte : UInt8)
  | skipEqualRegister (x y : Register)
  | loadByte (x : Register) (byte : UInt8)
  | addByte (x : Register) (byte : UInt8)
  | alu (op : AluOp) (x y : Register)
  | skipUnequalRegister (x y : Register)
  | loadIndex (address : UInt16)
  | jumpIndexed (address : UInt16)
  | random (x : Register) (mask : UInt8)
  | draw (x y : Register) (height : UInt8)
  | skipKeyDown (x : Register)
  | skipKeyUp (x : Register)
  | readDelay (x : Register)
  | waitKey (x : Register)
  | setDelay (x : Register)
  | setSound (x : Register)
  | addIndex (x : Register)
  | fontGlyph (x : Register)
  | decimalDigits (x : Register)
  | saveRegisters (x : Register)
  | loadRegisters (x : Register)
  | unassigned (word : Word)
deriving DecidableEq, Repr

end Chip8
