import Chip8.Instruction.Basic
import Chip8.Text.Hex

/-!
# Assembly text

An instruction is a mnemonic and its operands. The destination comes first, an
address has three digits at least, a byte two. A word that is not code is a `db`
directive, and so is a word the machine does not assign. A call of machine code
repeats itself as a directive in a comment, since the machine is another one.
-/

namespace Chip8

def Register.digit (r : Register) : String := Hex.padded 1 r.index.toNat

def Register.text (r : Register) : String := "V" ++ r.digit

/-- Three characters, so that operands stand in one column. -/
def AluOp.mnemonic : AluOp → String
  | move => "mov" | or => "or " | and => "and" | xor => "xor"
  | add => "add" | sub => "sub" | shiftRight => "shr"
  | reverseSub => "rsu" | shiftLeft => "shl"

def Word.dataText (w : Word) : String := "db  " ++ Hex.padded 4 w.toNat

namespace Instruction

def addressText (a : UInt16) : String := Hex.padded 3 a.toNat

def byteText (b : UInt8) : String := Hex.padded 2 b.toNat

def text : Instruction → String
  | clearScreen => "clr"
  | subroutineReturn => "ret"
  | machineCall a => "njp " ++ addressText a ++ " ; db 0" ++ addressText a
  | jump a => "jmp " ++ addressText a
  | call a => "cll " ++ addressText a
  | skipEqualByte x b => "seq " ++ x.text ++ ", " ++ byteText b
  | skipUnequalByte x b => "sne " ++ x.text ++ ", " ++ byteText b
  | skipEqualRegister x y => "seq " ++ x.text ++ ", " ++ y.text
  | loadByte x b => "mov " ++ x.text ++ ", " ++ byteText b
  | addByte x b => "add " ++ x.text ++ ", " ++ byteText b
  | alu op x y => op.mnemonic ++ " " ++ x.text ++ ", " ++ y.text
  | skipUnequalRegister x y => "sne " ++ x.text ++ ", " ++ y.text
  | loadIndex a => "mov I, " ++ addressText a
  | jumpIndexed a => "jmp [" ++ addressText a ++ " + V0]"
  | random x mask => "mov " ++ x.text ++ ", [random & " ++ byteText mask ++ "]"
  | draw x y height => "drw " ++ x.text ++ ", " ++ y.text ++ ", " ++ Hex.padded 1 height.toNat
  | skipKeyDown x => "skd " ++ x.digit
  | skipKeyUp x => "sku " ++ x.digit
  | readDelay x => "mov " ++ x.text ++ ", DL"
  | waitKey x => "wky " ++ x.text
  | setDelay x => "mov DL, " ++ x.text
  | setSound x => "mov SN, " ++ x.text
  | addIndex x => "mov I,  " ++ x.text
  | fontGlyph x => "fnt I,  " ++ x.text
  | decimalDigits x => "bcd " ++ x.text
  | saveRegisters x => "dump V0.." ++ x.text
  | loadRegisters x => "load V0.." ++ x.text
  | unassigned w => w.dataText

example : text (draw ⟨0⟩ ⟨1⟩ 5) = "drw V0, V1, 5" := by decide +kernel
example : text (machineCall 0x2D) = "njp 02D ; db 002D" := by decide +kernel

end Instruction

end Chip8
