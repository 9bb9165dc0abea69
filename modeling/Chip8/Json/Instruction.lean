import Chip8.Instruction.Basic
import Chip8.Json.Basic

/-!
# Instructions in JSON

An instruction is an alternative with its operands as fields, and a register is
its number. Any byte is read as a register.
-/

namespace Chip8

open Json

def Register.toJson (r : Register) : Json := nat r.index.toNat

def Register.ofJson? (j : Json) : Option Register := (uint8? j).map Register.mk

namespace AluOp

def name : AluOp → String
  | move => "Mov" | or => "Or" | and => "And" | xor => "Xor"
  | add => "Add" | sub => "Sub" | shiftRight => "Shr"
  | reverseSub => "ReverseSub" | shiftLeft => "Shl"

def toJson (op : AluOp) : Json := string op.name

def ofName? : String → Option AluOp
  | "Mov" => some move | "Or" => some or | "And" => some and | "Xor" => some xor
  | "Add" => some add | "Sub" => some sub | "Shr" => some shiftRight
  | "ReverseSub" => some reverseSub | "Shl" => some shiftLeft
  | _ => none

def ofJson? (j : Json) : Option AluOp :=
  match variant? j with
  | some (name, payload) => (ofName? name).bind (bare? · payload)
  | none => none

end AluOp

namespace Instruction

def address16 (a : UInt16) : Json := record [("address", nat a.toNat)]

def registerByte (x : Register) (b : UInt8) : Json :=
  record [("x", x.toJson), ("byte", nat b.toNat)]

def registers (x y : Register) : Json := record [("x", x.toJson), ("y", y.toJson)]

def register (x : Register) : Json := record [("x", x.toJson)]

def toJson : Instruction → Json
  | clearScreen => string "ClearScreen"
  | subroutineReturn => string "Return"
  | machineCall a => variant "MachineCall" (address16 a)
  | jump a => variant "Jump" (address16 a)
  | call a => variant "Call" (address16 a)
  | skipEqualByte x b => variant "SkipEqImmediate" (registerByte x b)
  | skipUnequalByte x b => variant "SkipNeImmediate" (registerByte x b)
  | skipEqualRegister x y => variant "SkipEqRegister" (registers x y)
  | loadByte x b => variant "LoadImmediate" (registerByte x b)
  | addByte x b => variant "AddImmediate" (registerByte x b)
  | alu op x y =>
    variant "Alu" (record [("op", op.toJson), ("x", x.toJson), ("y", y.toJson)])
  | skipUnequalRegister x y => variant "SkipNeRegister" (registers x y)
  | loadIndex a => variant "LoadIndex" (address16 a)
  | jumpIndexed a => variant "JumpIndexed" (address16 a)
  | random x mask => variant "Random" (record [("x", x.toJson), ("mask", nat mask.toNat)])
  | draw x y height =>
    variant "Draw" (record [("x", x.toJson), ("y", y.toJson), ("height", nat height.toNat)])
  | skipKeyDown x => variant "SkipKeyDown" (register x)
  | skipKeyUp x => variant "SkipKeyUp" (register x)
  | readDelay x => variant "GetDelay" (register x)
  | waitKey x => variant "WaitKey" (register x)
  | setDelay x => variant "SetDelay" (register x)
  | setSound x => variant "SetSound" (register x)
  | addIndex x => variant "AddIndex" (register x)
  | fontGlyph x => variant "FontChar" (register x)
  | decimalDigits x => variant "Bcd" (register x)
  | saveRegisters x => variant "Dump" (register x)
  | loadRegisters x => variant "Load" (register x)
  | unassigned w => variant "Unknown" (record [("word", nat w.toNat)])

def carriedAddress? (make : UInt16 → Instruction) (payload : Option Json) : Option Instruction :=
  match carried? ["address"] payload with
  | some [a] => (uint16? a).map make
  | _ => none

def carriedRegisterByte? (byte : String) (make : Register → UInt8 → Instruction)
    (payload : Option Json) : Option Instruction :=
  match carried? ["x", byte] payload with
  | some [x, b] => do return make (← Register.ofJson? x) (← uint8? b)
  | _ => none

def carriedRegisters? (make : Register → Register → Instruction) (payload : Option Json) :
    Option Instruction :=
  match carried? ["x", "y"] payload with
  | some [x, y] => do return make (← Register.ofJson? x) (← Register.ofJson? y)
  | _ => none

def carriedRegister? (make : Register → Instruction) (payload : Option Json) :
    Option Instruction :=
  match carried? ["x"] payload with
  | some [x] => (Register.ofJson? x).map make
  | _ => none

def carriedAlu? (payload : Option Json) : Option Instruction :=
  match carried? ["op", "x", "y"] payload with
  | some [op, x, y] => do
    return alu (← AluOp.ofJson? op) (← Register.ofJson? x) (← Register.ofJson? y)
  | _ => none

def carriedDraw? (payload : Option Json) : Option Instruction :=
  match carried? ["x", "y", "height"] payload with
  | some [x, y, h] => do
    return draw (← Register.ofJson? x) (← Register.ofJson? y) (← uint8? h)
  | _ => none

def carriedWord? (payload : Option Json) : Option Instruction :=
  match carried? ["word"] payload with
  | some [w] => (uint16? w).map unassigned
  | _ => none

def ofVariant? (name : String) (payload : Option Json) : Option Instruction :=
  match name with
  | "ClearScreen" => bare? clearScreen payload
  | "Return" => bare? subroutineReturn payload
  | "MachineCall" => carriedAddress? machineCall payload
  | "Jump" => carriedAddress? jump payload
  | "Call" => carriedAddress? call payload
  | "SkipEqImmediate" => carriedRegisterByte? "byte" skipEqualByte payload
  | "SkipNeImmediate" => carriedRegisterByte? "byte" skipUnequalByte payload
  | "SkipEqRegister" => carriedRegisters? skipEqualRegister payload
  | "LoadImmediate" => carriedRegisterByte? "byte" loadByte payload
  | "AddImmediate" => carriedRegisterByte? "byte" addByte payload
  | "Alu" => carriedAlu? payload
  | "SkipNeRegister" => carriedRegisters? skipUnequalRegister payload
  | "LoadIndex" => carriedAddress? loadIndex payload
  | "JumpIndexed" => carriedAddress? jumpIndexed payload
  | "Random" => carriedRegisterByte? "mask" random payload
  | "Draw" => carriedDraw? payload
  | "SkipKeyDown" => carriedRegister? skipKeyDown payload
  | "SkipKeyUp" => carriedRegister? skipKeyUp payload
  | "GetDelay" => carriedRegister? readDelay payload
  | "WaitKey" => carriedRegister? waitKey payload
  | "SetDelay" => carriedRegister? setDelay payload
  | "SetSound" => carriedRegister? setSound payload
  | "AddIndex" => carriedRegister? addIndex payload
  | "FontChar" => carriedRegister? fontGlyph payload
  | "Bcd" => carriedRegister? decimalDigits payload
  | "Dump" => carriedRegister? saveRegisters payload
  | "Load" => carriedRegister? loadRegisters payload
  | "Unknown" => carriedWord? payload
  | _ => none

def ofJson? (j : Json) : Option Instruction :=
  match variant? j with
  | some (name, payload) => ofVariant? name payload
  | none => none

end Instruction

end Chip8
