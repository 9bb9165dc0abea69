/-!
# Words and their fields

A CHIP-8 program is a sequence of 16-bit words. A word has the form `OXYN`: four
nibbles, of which the first selects the class of the opcode. The last two form
an immediate byte `KK`, the last three a 12-bit address `NNN`.
-/

namespace Chip8

abbrev Word := UInt16

namespace Word

/-- A word is stored with its high byte first. -/
def ofBytes (high low : UInt8) : Word := 256 * high.toUInt16 + low.toUInt16

def opcode (w : Word) : UInt8 := (w / 0x1000).toUInt8
def x (w : Word) : UInt8 := (w / 0x100 % 0x10).toUInt8
def y (w : Word) : UInt8 := (w / 0x10 % 0x10).toUInt8
def nibble (w : Word) : UInt8 := (w % 0x10).toUInt8
def address (w : Word) : UInt16 := w % 0x1000
def byte (w : Word) : UInt8 := (w % 0x100).toUInt8

theorem toNat_address (w : Word) : w.address.toNat = w.toNat % 4096 := by
  simp [address, UInt16.toNat_mod]

example : opcode 0xD015 = 0xD ∧ x 0xD015 = 0 ∧ y 0xD015 = 1 ∧ nibble 0xD015 = 5 := by decide
example : address 0xA208 = 0x208 ∧ byte 0x30FF = 0xFF := by decide

end Word

/-- The sixteen classes that the first nibble of a word selects. -/
inductive OpcodeClass where
  | system | jump | call
  | skipEqualByte | skipUnequalByte | skipEqualRegister
  | loadByte | addByte | arithmetic
  | skipUnequalRegister | loadIndex | jumpIndexed
  | random | draw | key | misc
deriving DecidableEq, Repr

namespace OpcodeClass

/-- Only the low nibble of the argument counts. -/
def ofNibble (n : UInt8) : OpcodeClass :=
  match (n % 16).toNat with
  | 0 => system | 1 => jump | 2 => call
  | 3 => skipEqualByte | 4 => skipUnequalByte | 5 => skipEqualRegister
  | 6 => loadByte | 7 => addByte | 8 => arithmetic
  | 9 => skipUnequalRegister | 10 => loadIndex | 11 => jumpIndexed
  | 12 => random | 13 => draw | 14 => key | _ => misc

def nibble : OpcodeClass → UInt8
  | system => 0 | jump => 1 | call => 2
  | skipEqualByte => 3 | skipUnequalByte => 4 | skipEqualRegister => 5
  | loadByte => 6 | addByte => 7 | arithmetic => 8
  | skipUnequalRegister => 9 | loadIndex => 10 | jumpIndexed => 11
  | random => 12 | draw => 13 | key => 14 | misc => 15

theorem ofNibble_nibble (c : OpcodeClass) : ofNibble c.nibble = c := by
  cases c <;> rfl

end OpcodeClass

/-- A register number. A decoded instruction names `V0` to `VF`; data read from
outside may hold any byte. -/
structure Register where
  index : UInt8
deriving DecidableEq, Repr, Inhabited

namespace Register

/-- The register of a 4-bit number. -/
def ofNibble? (n : UInt8) : Option Register :=
  if n < 16 then some ⟨n⟩ else none

def v0 : Register := ⟨0⟩
def vF : Register := ⟨15⟩

end Register

def Word.vx (w : Word) : Register := ⟨w.x⟩
def Word.vy (w : Word) : Register := ⟨w.y⟩

end Chip8
