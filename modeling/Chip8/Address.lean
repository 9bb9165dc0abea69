/-!
# Addresses and word indices

The words of an image lie one after the other from the load address on, two
bytes each. Word `i` is at the address `load + 2 * i`; an address belongs to the
word that contains it, so an odd one belongs to the word that starts a byte
earlier. An address below the load address has a negative index.
-/

namespace Chip8.Address

/-- Programs are loaded behind the interpreter's own 512 bytes. -/
def defaultLoad : UInt16 := 0x200

/-- The last byte of memory. -/
def last : UInt16 := 0xFFF

def wordBytes : Nat := 2

/-- What memory leaves for a program at the default load address. -/
def programBytes : Nat := 0xE00

def ofIndex (load : UInt16) (index : Nat) : Nat := load.toNat + wordBytes * index

def toIndex (load address : UInt16) : Int :=
  ((address.toNat : Int) - load.toNat) / 2

theorem toIndex_ofIndex (load : UInt16) (index : Nat) (h : ofIndex load index < 65536) :
    toIndex load (UInt16.ofNat (ofIndex load index)) = index := by
  rw [toIndex, UInt16.toNat_ofNat_of_lt' h, ofIndex, wordBytes]
  omega

example : toIndex 0x200 0x205 = 2 ∧ toIndex 0x200 0x1FF = -1 := by decide

end Chip8.Address
