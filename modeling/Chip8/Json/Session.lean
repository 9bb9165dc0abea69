import Chip8.Json.Listing
import Chip8.Json.Report
import Chip8.Session

/-!
# Session results in JSON
-/

namespace Chip8.Session

open Json

namespace Row

def toJson (r : Row) : Json :=
  record [("address", nat r.address), ("word", nat r.word.toNat), ("reachable", bool r.reachable),
    ("text", string r.text)]

def ofJson? (j : Json) : Option Row :=
  match fields? ["address", "word", "reachable", "text"] j with
  | some [some address, some word, some reachable, some text] => do
    return {
      address := ← nat64? address
      word := ← uint16? word
      reachable := ← bool? reachable
      text := ← string? text }
  | _ => none

end Row

namespace Result

def trailingJson : Option UInt8 → Json
  | none => null
  | some b => nat b.toNat

def toJson (r : Result) : Json :=
  record [("rows", array (r.rows.map Row.toJson)), ("reachable", nat r.reachable),
    ("trailing_byte", trailingJson r.trailing), ("report", array (r.report.map Report.Event.toJson))]

/-- Only the byte without a partner may be missing. -/
def ofJson? (j : Json) : Option Result :=
  match fields? ["rows", "reachable", "trailing_byte", "report"] j with
  | some [some rows, some reachable, trailing, some report] => do
    return {
      rows := ← list? Row.ofJson? rows
      reachable := ← nat64? reachable
      trailing := ← optional? uint8? trailing
      report := ← list? Report.Event.ofJson? report }
  | _ => none

end Result

end Chip8.Session
