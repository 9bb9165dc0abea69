import Chip8.Sink
import Chip8.Text.Hex
import Chip8.Word

/-!
# Reports

A disassembly tells what it finds as a sequence of events. Printed as text, each
event is one line. A printer writes the lines to a sink; after its first failure
it writes nothing more and remembers what went wrong, which is told at the end.
-/

namespace Chip8.Report

inductive Event where
  | analysisStarted (words : Nat)
  | analysisFinished (reachable total : Nat)
  | classified (index address : Nat) (word : Word) (reachable : Bool)
  | trailingByte (byte : UInt8)
deriving DecidableEq, Repr

def Event.line : Event → String
  | analysisStarted _ => "Analysing reachability...\n"
  | analysisFinished reachable total =>
    "ANALYSIS DONE! " ++ toString reachable ++ " of " ++ toString total ++
      " words reachable. Result:\n"
  | classified _ address word reachable =>
    Hex.padded 3 address ++ ": " ++ Hex.padded 4 word.toNat ++
      (if reachable then " reachable\n" else " unreachable\n")
  | trailingByte byte => "trailing byte " ++ Hex.padded 2 byte.toNat ++ " ignored\n"

/-- Prints an event, unless an earlier one could not be printed. What went wrong first is
kept. -/
def print {m : Type → Type} [Monad m] (out : Writer m) (e : Event) : StateT (Option IoError) m Unit := do
  match ← get with
  | some _ => return ()
  | none =>
    match ← out.write (Utf8.encode e.line) with
    | .ok () => return ()
    | .error failure => set (some failure)

/-- The first failure of all writes; what was written is flushed only if there was none. -/
def finish {m : Type → Type} [Monad m] (out : Writer m) :
    Option IoError → m (Except IoError Unit)
  | some failure => return .error failure
  | none => out.flush

/-- A report on its way to a sink. -/
structure Printer where
  sink : Sink
  failure : Option IoError := none
deriving DecidableEq, Repr

namespace Printer

def printAll (p : Printer) (events : List Event) : Printer :=
  let (sink, (_, failure)) := p.sink.run fun out => (events.forM (print out)).run p.failure
  { sink, failure }

def finish (p : Printer) : Sink × Except IoError Unit :=
  p.sink.run fun out => Report.finish out p.failure

end Printer

end Chip8.Report
