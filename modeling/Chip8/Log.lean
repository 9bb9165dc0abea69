/-!
# Log records

What the library says about its work beside its results: a level, the part that
speaks, and a message. Which records are printed, and how, is up to the logger of
the program; the library knows no more of it than that it is set up by a filter,
which is a text.
-/

namespace Chip8.Log

inductive Level where
  | error | warn | info | debug | trace
deriving DecidableEq, Repr

namespace Level

def name : Level → String
  | error => "ERROR" | warn => "WARN" | info => "INFO" | debug => "DEBUG" | trace => "TRACE"

/-- The more detailed, the higher. -/
def rank : Level → Nat
  | error => 1 | warn => 2 | info => 3 | debug => 4 | trace => 5

end Level

/-- The parts of the program that write records. -/
inductive Source where
  | image | analysis | files | command
deriving DecidableEq, Repr

/-- The name under which a part appears in a record. -/
def Source.target : Source → String
  | image => "disasm_core::image"
  | analysis => "disasm_core::analysis"
  | files => "disassembler::pipeline"
  | command => "c8dasm"

structure Record where
  level : Level
  source : Source
  message : String
deriving DecidableEq, Repr

/-- A logger that has been set up. -/
structure Logger where
  /-- What it has to say about its filter. -/
  greeting : String := ""
  /-- What it prints for a record, which is nothing if the filter stops it. -/
  print : Record → String := fun _ => ""

/-- How a logger is set up, by a filter. -/
abbrev Backend := String → Logger

end Chip8.Log
