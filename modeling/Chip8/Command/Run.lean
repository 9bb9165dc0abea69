import Chip8.Command.Arguments

/-!
# Running the command

One run of the command reads its arguments, and does what they ask for in the
surroundings it is given. Standard error carries the report and whatever the logger
prints, in the order in which they come out, and at the end either a closing record
or the failure.
-/

namespace Chip8.Command

def usageLines : List String :=
  ["Usage: c8dasm <rom> [options]",
   "",
   "Disassembles a CHIP-8 ROM, listing reachable words as instructions and",
   "everything else as data.",
   "",
   "Options:",
   "  -o, --output <file>  Write the listing to a file (default: stdout)",
   "  -b, --base <hex>     Load address of the ROM (default: 200)",
   "  -q, --quiet          Do not print the reachability report to stderr",
   "  -v, --verbose        Enable debug logging",
   "  -h, --help           Show this help message",
   "",
   "Examples:",
   "  c8dasm pong.ch8",
   "  c8dasm pong.ch8 -o pong.asm",
   "  c8dasm eti-game.bin --base 600"]

def usageText : String := String.join (usageLines.map (· ++ "\n"))

/-- What is said about a failure. The usage is shown where it was not followed. -/
def failureLines (f : Failure) : List String :=
  ("error: " ++ f.message) ::
    match f with
    | .usage _ => [usageText]
    | _ => []

section

variable {m : Type → Type} [Monad m] (s : Surroundings m)

/-- Tells of a failure, and gives the exit code for it. -/
def fail (f : Failure) : m Nat := do
  (failureLines f).forM (s.printLine .errors)
  return f.exitCode

/-- The filter of records if none is asked for. -/
def fallbackFilter (verbose : Bool) : String := if verbose then "debug" else "warn"

/-- Runs the command and gives its exit code. -/
def perform (args : List Bytes) : m Nat := do
  match read args with
  | .error e => fail s (.usage e.message)
  | .ok .help => do
    s.printLine .output usageText
    return 0
  | .ok (.run job verbose) => do
    s.startLog (fallbackFilter verbose)
    match ← job.perform s (s.stream .errors) with
    | .ok summary => do
      s.log summary.record
      return 0
    | .error failure => fail s failure

end

structure Outcome where
  exitCode : Nat
  stdout : Bytes
  stderr : Bytes
  directory : Directory

/-- Runs the command among the files of a directory, with standard streams that take
everything. -/
def run (backend : Log.Backend) (args : List Bytes) (filter : Option String)
    (directory : Directory) : Outcome :=
  let (exitCode, w) := perform World.surroundings args { directory, filter, backend }
  { exitCode, stdout := w.stdout.stored, stderr := w.stderr.stored, directory := w.directory }

end Chip8.Command
