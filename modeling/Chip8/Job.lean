import Chip8.Disassembly
import Chip8.Failure
import Chip8.World

/-!
# Disassembly jobs

A job reads a program, disassembles it, prints the report if one is wanted, and
writes the listing to a file or to standard output. These happen in this order and a
failure ends the job, so no file is changed before the report has been printed in
full.
-/

namespace Chip8

structure Job where
  rom : Path
  /-- The file for the listing; standard output if there is none. -/
  output : Option Path := none
  config : Config := {}
  report : Bool := true
deriving DecidableEq, Repr

namespace Job

structure Summary where
  words : Nat
  reachable : Nat
deriving DecidableEq, Repr

def Summary.of (d : Disassembly) : Summary where
  words := d.image.size
  reachable := d.reachability.count

def Summary.record (s : Summary) : Log.Record :=
  ⟨.info, .command, toString s.reachable ++ " of " ++ toString s.words ++
    " words listed as code"⟩

def readRecord (count : Nat) (rom : Path) : Log.Record :=
  ⟨.debug, .files, "read " ++ toString count ++ " bytes from " ++ rom.display⟩

section

variable {m : Type → Type} [Monad m] (s : Surroundings m)

/-- Prints the events and logs the records. -/
def aloud (out : Writer m) : Signal → StateT (Option IoError) m Unit
  | .event e => Report.print out e
  | .record r => liftM (s.log r)

/-- Only logs the records. -/
def quietly : Signal → m Unit
  | .event _ => return ()
  | .record r => s.log r

/-- Disassembles the bytes, with a report to `out` if one is wanted. -/
def prepare (job : Job) (out : Writer m) (bytes : Bytes) : m (Except Failure Disassembly) := do
  if job.report then
    let (outcome, failure) ← (disassembleWith (aloud s out) job.config bytes).run none
    match outcome with
    | .error e => return .error (.config e)
    | .ok d =>
      match ← Report.finish out failure with
      | .error e => return .error (.writeReport e)
      | .ok () => return .ok d
  else
    match ← disassembleWith (quietly s) job.config bytes with
    | .error e => return .error (.config e)
    | .ok d => return .ok d

/-- The name under which standard output appears in messages. -/
def dash : Path := #[0x2D]

def writeListing (l : Listing) : Option Path → m (Except Failure Unit)
  | some path => do
    match ← s.createFile path with
    | .error e => return .error (.writeListing path e)
    | .ok out => return (← l.writeTo out).mapError (.writeListing path)
  | none => return (← l.writeTo (s.stream .output)).mapError (.writeListing dash)

def perform (job : Job) (out : Writer m) : m (Except Failure Summary) := do
  match ← s.readFile job.rom with
  | .error e => return .error (.readRom job.rom e)
  | .ok bytes =>
    s.log (readRecord bytes.size job.rom)
    match ← job.prepare s out bytes with
    | .error failure => return .error failure
    | .ok d => return (← writeListing s d.listing job.output).map fun () => .of d

end

/-- What a job leaves behind. -/
structure Finished where
  result : Except Failure Summary
  directory : Directory
  /-- Where the report went. -/
  sink : Sink
  records : List Log.Record
  stdout : Bytes
  stderr : Bytes

/-- Runs a job among the files of a directory, with a sink for its report. -/
def run (job : Job) (directory : Directory) (sink : Sink) : Finished :=
  let (result, w) := job.perform World.surroundings World.toCaller { directory, caller := sink }
  { result, directory := w.directory, sink := w.caller, records := w.records
    stdout := w.stdout.stored, stderr := w.stderr.stored }

end Job

end Chip8
