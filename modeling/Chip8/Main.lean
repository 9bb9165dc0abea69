import Chip8.Command.Run
import Chip8.Log.Standard

/-!
# The command

The surroundings that a real system gives: its files, its streams, and the standard
logger. What is done with them is up to `Chip8.Command`.
-/

namespace Chip8.Main

/-- The system gives the number of a cause, or its negative. -/
def causeNumber (n : UInt32) : Nat :=
  if n < 0x80000000 then n.toNat else (0 - n).toNat

def numbered (n : UInt32) (text : String) : IoError := .os ⟨causeNumber n, text⟩

def errorOf : IO.Error → IoError
  | .alreadyExists _ number text | .otherError number text | .resourceBusy number text
  | .resourceVanished number text | .unsupportedOperation number text
  | .hardwareFault number text | .unsatisfiedConstraints number text
  | .illegalOperation number text | .protocolError number text | .timeExpired number text
  | .interrupted _ number text | .noFileOrDirectory _ number text
  | .invalidArgument _ number text | .permissionDenied _ number text
  | .resourceExhausted _ number text | .inappropriateType _ number text
  | .noSuchThing _ number text => numbered number text
  | .unexpectedEof => .described .other "unexpected end of file"
  | .userError text => .described .other text

def attempt (action : IO α) : IO (Except IoError α) := do
  match ← action.toBaseIO with
  | .ok a => return .ok a
  | .error e => return .error (errorOf e)

def file (handle : IO.FS.Handle) : Writer IO where
  write chunk := attempt (handle.write ⟨chunk⟩)
  flush := attempt handle.flush

def stream (s : IO.FS.Stream) : Writer IO where
  write chunk := attempt (s.write ⟨chunk⟩)
  flush := attempt s.flush

def surroundings : IO (Surroundings IO) := do
  let stdout ← IO.getStdout
  let stderr ← IO.getStderr
  let filter ← IO.getEnv "RUST_LOG"
  let logger ← IO.mkRef ({} : Log.Logger)
  let streamOf : Stream → IO.FS.Stream
    | .output => stdout
    | .errors => stderr
  return {
    readFile := fun path => do
      let read : IO ByteArray := do (← IO.FS.Handle.mk path.display .read).readBinToEnd
      return (← attempt read).map ByteArray.data
    createFile := fun path => return (← attempt (IO.FS.Handle.mk path.display .write)).map file
    stream := fun s => stream (streamOf s)
    printLine := fun s text => (streamOf s).putStrLn text
    startLog := fun fallback => do
      let started := Log.standard (filter.getD fallback)
      logger.set started
      stderr.putStr started.greeting
    log := fun r => do stderr.putStr ((← logger.get).print r) }

end Chip8.Main

def main (args : List String) : IO UInt32 := do
  let exitCode ← Chip8.Command.perform (← Chip8.Main.surroundings) (args.map Chip8.Utf8.encode)
  return exitCode.toUInt32
