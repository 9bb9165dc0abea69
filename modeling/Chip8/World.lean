import Chip8.Surroundings

/-!
# Worlds

Surroundings whose state is known: the files, what the standard streams hold, and
what was logged. A logger that has been set up prints on standard error, in the
midst of what the program writes there.
-/

namespace Chip8

structure World where
  directory : Directory := {}
  stdout : Sink := Sink.unlimited
  stderr : Sink := Sink.unlimited
  /-- A sink of whoever runs the program. -/
  caller : Sink := Sink.unlimited
  /-- The filter of records that is asked for. -/
  filter : Option String := none
  backend : Log.Backend := fun _ => {}
  logger : Option Log.Logger := none
  /-- All records so far. -/
  records : List Log.Record := []

namespace World

def stream : Stream → Writer (StateM World)
  | .output => Sink.within stdout fun s w => { w with stdout := s }
  | .errors => Sink.within stderr fun s w => { w with stderr := s }

def toCaller : Writer (StateM World) := Sink.within caller fun s w => { w with caller := s }

def toFile (p : Place) : Writer (StateM World) :=
  Sink.within (fun w => w.directory.sink p) fun s w =>
    { w with directory := w.directory.put p (.file s.stored) }

def toOutlet : Outlet → Writer (StateM World)
  | .stream s => stream s
  | .sink s => Sink.within (fun _ => s) fun _ w => w

/-- What is behind a place that was created. -/
def opened (dir : Directory) (p : Place) : Writer (StateM World) :=
  match dir.at? p with
  | some (.device d) => toOutlet d.outlet
  | _ => toFile p

def createFile (p : Path) (w : World) : Except IoError (Writer (StateM World)) × World :=
  match w.directory.create p with
  | .error e => (.error e, w)
  | .ok place => (.ok (opened w.directory place), { w with directory := w.directory.emptied place })

/-- Puts text on standard error, whatever becomes of it. -/
def sayError (text : String) (w : World) : World :=
  { w with stderr := (w.stderr.write (Utf8.encode text)).1 }

def printLine (s : Stream) (text : String) (w : World) : World :=
  ((stream s).write (Utf8.encode (text ++ "\n")) w).2

def startLog (fallback : String) (w : World) : World :=
  let logger := w.backend (w.filter.getD fallback)
  { w with logger := some logger }.sayError logger.greeting

/-- Without a logger a record is only noted. -/
def log (r : Log.Record) (w : World) : World :=
  let noted := { w with records := w.records ++ [r] }
  match w.logger with
  | none => noted
  | some logger => noted.sayError (logger.print r)

def surroundings : Surroundings (StateM World) where
  readFile p w := (w.directory.read p, w)
  createFile := createFile
  stream := stream
  printLine s text w := ((), w.printLine s text)
  startLog fallback w := ((), w.startLog fallback)
  log r w := ((), w.log r)

end World

end Chip8
