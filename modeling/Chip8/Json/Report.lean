import Chip8.Json.Basic
import Chip8.Report

/-!
# Events in JSON
-/

namespace Chip8.Report.Event

open Json

def toJson : Event → Json
  | analysisStarted words => variant "AnalysisStarted" (record [("words", nat words)])
  | analysisFinished reachable total =>
    variant "AnalysisFinished" (record [("reachable", nat reachable), ("total", nat total)])
  | classified index address word reachable =>
    variant "Classified" (record [("index", nat index), ("address", nat address),
      ("word", nat word.toNat), ("reachable", bool reachable)])
  | trailingByte byte => variant "TrailingByte" (record [("byte", nat byte.toNat)])

def carriedStart? (payload : Option Json) : Option Event :=
  match carried? ["words"] payload with
  | some [words] => (nat64? words).map analysisStarted
  | _ => none

def carriedFinish? (payload : Option Json) : Option Event :=
  match carried? ["reachable", "total"] payload with
  | some [reachable, total] => do return analysisFinished (← nat64? reachable) (← nat64? total)
  | _ => none

def carriedClass? (payload : Option Json) : Option Event :=
  match carried? ["index", "address", "word", "reachable"] payload with
  | some [index, address, word, reachable] => do
    return classified (← nat64? index) (← nat64? address) (← uint16? word) (← bool? reachable)
  | _ => none

def carriedByte? (payload : Option Json) : Option Event :=
  match carried? ["byte"] payload with
  | some [byte] => (uint8? byte).map trailingByte
  | _ => none

def ofJson? (j : Json) : Option Event :=
  match variant? j with
  | some ("AnalysisStarted", payload) => carriedStart? payload
  | some ("AnalysisFinished", payload) => carriedFinish? payload
  | some ("Classified", payload) => carriedClass? payload
  | some ("TrailingByte", payload) => carriedByte? payload
  | _ => none

end Chip8.Report.Event
