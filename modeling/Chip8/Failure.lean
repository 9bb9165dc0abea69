import Chip8.Config
import Chip8.Directory

/-!
# Failures

Why a run of the program ended without a result. A failure has a message and an
exit code: 2 if the command line was not understood, 1 for everything else.
-/

namespace Chip8

inductive Failure where
  | usage (message : String)
  | readRom (path : Path) (error : IoError)
  | writeListing (path : Path) (error : IoError)
  | writeReport (error : IoError)
  | config (error : ConfigError)
deriving DecidableEq, Repr

namespace Failure

def message : Failure → String
  | usage message => message
  | readRom path error => "failed to read " ++ path.display ++ ": " ++ error.message
  | writeListing path error =>
    "failed to write listing to " ++ path.display ++ ": " ++ error.message
  | writeReport error => "failed to write report: " ++ error.message
  | config error => error.message

def exitCode : Failure → Nat
  | usage _ => 2
  | _ => 1

end Failure

end Chip8
