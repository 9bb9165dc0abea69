import Chip8.Directory
import Chip8.Log

/-!
# Surroundings

What a program asks of the system it runs on, and nothing else of it. The programs
of this library are written for any surroundings: those of a real system, or a
world whose state is known.
-/

namespace Chip8

structure Surroundings (m : Type → Type) where
  /-- All that is in a file. -/
  readFile : Path → m (Except IoError Bytes)
  /-- Makes a file or empties the one that is there, and opens it. -/
  createFile : Path → m (Except IoError (Writer m))
  stream : Stream → Writer m
  /-- Prints a line. A program whose line cannot be printed ends there. -/
  printLine : Stream → String → m Unit
  /-- Sets up the logger, with a filter for the case that none is asked for. -/
  startLog : String → m Unit
  log : Log.Record → m Unit

end Chip8
