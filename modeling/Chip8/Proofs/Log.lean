import Chip8.Log
import Chip8.Proofs.Text.Visible

/-!
# What is known of a logger

A logger is set up by a filter, and the name of a level is one. It then prints the records that
are not more detailed than the level, and a message of one visible line it prints as it is,
behind the level and the part that speaks. Nothing else about a logger is made use of.
-/

namespace Chip8.Log

/-- A label in brackets, and behind it a message in one line. -/
def labelled (label message : String) : String := "[" ++ label ++ "] " ++ message ++ "\n"

/-- The level, with blanks up to five characters, and the part that speaks. -/
def label (level : Level) (source : Source) : String :=
  level.name ++ String.ofList (List.replicate (5 - level.name.length) ' ') ++ " " ++ source.target

/-- The name of a level as a filter. -/
def Level.filter : Level → String
  | error => "error" | warn => "warn" | info => "info" | debug => "debug" | trace => "trace"

/-- How loggers behave that are set up by the name of a level. -/
structure Documented (backend : Backend) : Prop where
  greeting : ∀ level : Level, (backend level.filter).greeting = ""
  stops : ∀ (level : Level) (r : Record), level.rank < r.level.rank →
    (backend level.filter).print r = ""
  prints : ∀ (level : Level) (r : Record), r.level.rank ≤ level.rank → Visible r.message →
    (backend level.filter).print r = labelled (label r.level r.source) r.message

end Chip8.Log
