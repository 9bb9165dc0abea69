import Chip8.Json.Instruction
import Chip8.Listing

/-!
# Listings in JSON
-/

namespace Chip8

open Json

namespace LineKind

def toJson : LineKind → Json
  | code instruction => variant "Code" instruction.toJson
  | data => string "Data"

def ofJson? (j : Json) : Option LineKind :=
  match variant? j with
  | some ("Code", some payload) => (Instruction.ofJson? payload).map code
  | some ("Data", payload) => bare? data payload
  | _ => none

end LineKind

namespace Line

def toJson (l : Line) : Json :=
  record [("address", nat l.address), ("word", nat l.word.toNat), ("kind", l.kind.toJson)]

def ofJson? (j : Json) : Option Line :=
  match fields? ["address", "word", "kind"] j with
  | some [some address, some word, some kind] => do
    return { address := ← nat64? address, word := ← uint16? word, kind := ← LineKind.ofJson? kind }
  | _ => none

end Line

namespace Listing

def toJson (l : Listing) : Json := record [("lines", array (l.lines.toList.map Line.toJson))]

def ofJson? (j : Json) : Option Listing :=
  match fields? ["lines"] j with
  | some [some lines] => (list? Line.ofJson? lines).map fun lines => { lines := lines.toArray }
  | _ => none

end Listing

end Chip8
