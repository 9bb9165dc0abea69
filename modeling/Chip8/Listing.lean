import Chip8.Image
import Chip8.Instruction.Text
import Chip8.Reachability
import Chip8.Sink

/-!
# Listings

One line for each word: its address, and its instruction if it was reached or a
`db` directive if not. A listing is printed as one text, or written line by line.
-/

namespace Chip8

inductive LineKind where
  | code (instruction : Instruction)
  | data
deriving DecidableEq, Repr

structure Line where
  address : Nat
  word : Word
  kind : LineKind
deriving DecidableEq, Repr

namespace Line

def isCode (l : Line) : Bool :=
  match l.kind with
  | .code _ => true
  | .data => false

def text (l : Line) : String :=
  match l.kind with
  | .code instruction => instruction.text
  | .data => l.word.dataText

/-- The line as it is printed, without its end. -/
def display (l : Line) : String :=
  match l.kind with
  | .code instruction => Hex.padded 3 l.address ++ ": " ++ instruction.text
  | .data => Hex.padded 3 l.address ++ ": " ++ l.word.dataText

theorem display_eq (l : Line) : l.display = Hex.padded 3 l.address ++ ": " ++ l.text := by
  unfold display text
  cases l.kind with
  | code instruction => rfl
  | data => rfl

end Line

structure Listing where
  lines : Array Line := #[]
deriving DecidableEq, Repr, Inhabited

namespace Listing

/-- The line of the word at an index. -/
def lineOf (r : Reachability) (load : UInt16) (index : Nat) (w : Word) : Line where
  address := Address.ofIndex load index
  word := w
  kind := if r.isReached index then .code (Instruction.decode w) else .data

def build (words : Array Word) (r : Reachability) (load : UInt16) : Listing where
  lines := words.mapIdx (lineOf r load)

/-- The printed lines, each with its end. -/
def printed (l : Listing) : List String := l.lines.toList.map (·.display ++ "\n")

def text (l : Listing) : String := String.join l.printed

def writeLines {m : Type → Type} [Monad m] (out : Writer m) : List Line → m (Except IoError Unit)
  | [] => return .ok ()
  | line :: lines => do
    match ← out.write (Utf8.encode (line.display ++ "\n")) with
    | .error e => return .error e
    | .ok () => writeLines out lines

/-- Writes the listing line by line, and then flushes. -/
def writeTo {m : Type → Type} [Monad m] (l : Listing) (out : Writer m) :
    m (Except IoError Unit) := do
  match ← writeLines out l.lines.toList with
  | .error e => return .error e
  | .ok () => out.flush

theorem size_build (words : Array Word) (r : Reachability) (load : UInt16) :
    (build words r load).lines.size = words.size := by
  simp [build]

end Listing

end Chip8
