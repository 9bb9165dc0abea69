import Chip8.Address
import Chip8.Text.Hex

/-!
# Configuration

Where a program is loaded and where it starts. A load address has to be an
address, that is at most `FFF`, and even.
-/

namespace Chip8

structure Config where
  load : UInt16 := Address.defaultLoad
  /-- The index of the word that execution starts at. -/
  entry : Nat := 0
deriving DecidableEq, Repr, Inhabited

inductive ConfigError where
  | unaligned (load : UInt16)
  | outOfRange (load : UInt16)
deriving DecidableEq, Repr

def ConfigError.message : ConfigError → String
  | unaligned load => "load address " ++ Hex.padded 3 load.toNat ++ " is not word aligned"
  | outOfRange load =>
    "load address " ++ Hex.padded 1 load.toNat ++ " is outside the 12-bit address space"

/-- Of an odd address beyond the last one it is said that it is out of range. -/
def Config.validate (c : Config) : Except ConfigError Unit :=
  if Address.last < c.load then .error (.outOfRange c.load)
  else if c.load % 2 = 1 then .error (.unaligned c.load)
  else .ok ()

theorem Config.validate_eq_ok_iff (c : Config) :
    c.validate = .ok () ↔ c.load.toNat ≤ 0xFFF ∧ c.load.toNat % 2 = 0 := by
  have hodd : c.load % 2 = 1 ↔ c.load.toNat % 2 = 1 := by
    rw [← UInt16.toNat_inj, UInt16.toNat_mod]
    simp
  have hlast : Address.last < c.load ↔ 0xFFF < c.load.toNat := UInt16.lt_iff_toNat_lt
  simp only [validate, hodd, hlast]
  split
  · simp
    omega
  · split <;> simp <;> omega

end Chip8
