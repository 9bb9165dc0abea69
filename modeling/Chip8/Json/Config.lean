import Chip8.Config
import Chip8.Json.Basic

/-!
# Configurations in JSON
-/

namespace Chip8

open Json

namespace Config

def toJson (c : Config) : Json :=
  record [("load_address", nat c.load.toNat), ("entry_index", nat c.entry)]

/-- There are no defaults here: both fields have to be present. -/
def ofJson? (j : Json) : Option Config :=
  match fields? ["load_address", "entry_index"] j with
  | some [some load, some entry] => do
    return { load := ← uint16? load, entry := ← nat64? entry }
  | _ => none

end Config

namespace ConfigError

def toJson : ConfigError → Json
  | unaligned load => variant "UnalignedLoadAddress" (nat load.toNat)
  | outOfRange load => variant "LoadAddressOutOfRange" (nat load.toNat)

def ofJson? (j : Json) : Option ConfigError :=
  match variant? j with
  | some ("UnalignedLoadAddress", some load) => (uint16? load).map unaligned
  | some ("LoadAddressOutOfRange", some load) => (uint16? load).map outOfRange
  | _ => none

end ConfigError

end Chip8
