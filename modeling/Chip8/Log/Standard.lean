import Chip8.Log.Standard.Filter
import Chip8.Log.Standard.Terminal

/-!
# The standard logger

The logger that the command is run with. Its filter is read from rules and a pattern.
A user can ask for any filter, and then it decides what is seen of a run, so the rules
and the pattern are read in full. A record is printed with the level padded to five
characters. The further lines of a message are indented, and what a terminal would not
show as text is left out.

The command can do with any other logger. All that is relied on is that the name of a
level is a filter, and that a message of one visible line is printed behind its level
and its part.
-/

namespace Chip8.Log

def indentation : List Char := List.replicate 4 ' '

/-- Puts the indentation behind every line break. -/
def indented (s : String) : String :=
  String.ofList (s.toList.flatMap fun c => if c = '\n' then c :: indentation else [c])

def Record.line (r : Record) : String :=
  Terminal.plain <|
    "[" ++ r.level.name ++ String.ofList (List.replicate (5 - r.level.name.length) ' ') ++
      " " ++ r.source.target ++ "] " ++ indented r.message ++ "\n"

example : Record.line ⟨.warn, .image, "m"⟩ = "[WARN  disasm_core::image] m\n" := by decide
example : Record.line ⟨.info, .command, "x\ny"⟩ = "[INFO  c8dasm] x\n    y\n" := by decide

def standard : Backend := fun spec =>
  let (filter, warnings) := Filter.read spec
  { greeting := String.join warnings
    print := fun r => if filter.admits r then r.line else "" }

end Chip8.Log
