import Chip8.Instruction.Basic

/-!
# Decoding words

Every word has exactly one instruction. A skip that compares two registers does
not look at the last nibble of its word; all other assigned words are determined
by their instruction.
-/

namespace Chip8.Instruction

def decodeSystem (w : Word) : Instruction :=
  if w.address = 0x0E0 then clearScreen
  else if w.address = 0x0EE then subroutineReturn
  else machineCall w.address

def decodeArithmetic (w : Word) : Instruction :=
  match AluOp.ofNibble? w.nibble with
  | some op => alu op w.vx w.vy
  | none => unassigned w

def decodeKey (w : Word) : Instruction :=
  match w.byte.toNat with
  | 0x9E => skipKeyDown w.vx
  | 0xA1 => skipKeyUp w.vx
  | _ => unassigned w

def decodeMisc (w : Word) : Instruction :=
  match w.byte.toNat with
  | 0x07 => readDelay w.vx
  | 0x0A => waitKey w.vx
  | 0x15 => setDelay w.vx
  | 0x18 => setSound w.vx
  | 0x1E => addIndex w.vx
  | 0x29 => fontGlyph w.vx
  | 0x33 => decimalDigits w.vx
  | 0x55 => saveRegisters w.vx
  | 0x65 => loadRegisters w.vx
  | _ => unassigned w

def decode (w : Word) : Instruction :=
  match OpcodeClass.ofNibble w.opcode with
  | .system => decodeSystem w
  | .jump => jump w.address
  | .call => call w.address
  | .skipEqualByte => skipEqualByte w.vx w.byte
  | .skipUnequalByte => skipUnequalByte w.vx w.byte
  | .skipEqualRegister => skipEqualRegister w.vx w.vy
  | .loadByte => loadByte w.vx w.byte
  | .addByte => addByte w.vx w.byte
  | .arithmetic => decodeArithmetic w
  | .skipUnequalRegister => skipUnequalRegister w.vx w.vy
  | .loadIndex => loadIndex w.address
  | .jumpIndexed => jumpIndexed w.address
  | .random => random w.vx w.byte
  | .draw => draw w.vx w.vy w.nibble
  | .key => decodeKey w
  | .misc => decodeMisc w

example : decode 0x00E0 = clearScreen ∧ decode 0x00E1 = machineCall 0x0E1 := by decide
example : decode 0x5AB7 = decode 0x5AB0 := by decide
example : decode 0x8AB8 = unassigned 0x8AB8 := by decide

def isUnassigned : Instruction → Bool
  | unassigned _ => true
  | _ => false

end Chip8.Instruction
