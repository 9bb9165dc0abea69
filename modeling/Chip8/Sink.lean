import Chip8.Text.Utf8

/-!
# Sinks

Where bytes are written to. A sink may have room for a limited number of bytes.
Of a write that does not fit, the part that fits is stored and the write fails;
the sink then refuses every byte. Flushing changes nothing that is stored, but a
sink knows how often it was flushed.
-/

namespace Chip8

/-- A cause that an operating system gives, with its number and in its words. -/
structure OsError where
  number : Nat
  description : String
deriving DecidableEq, Repr

namespace OsError

def notFound : OsError := ⟨2, "No such file or directory"⟩

def notADirectory : OsError := ⟨20, "Not a directory"⟩

def isADirectory : OsError := ⟨21, "Is a directory"⟩

def noSpace : OsError := ⟨28, "No space left on device"⟩

def nameTooLong : OsError := ⟨36, "File name too long"⟩

def message (e : OsError) : String :=
  e.description ++ " (os error " ++ toString e.number ++ ")"

end OsError

inductive IoErrorKind where
  | notFound | permissionDenied | brokenPipe | storageFull | timedOut | outOfMemory | other
deriving DecidableEq, Repr

/-- Why reading or writing failed. It is never that it was interrupted: what was
interrupted is tried again. -/
inductive IoError where
  | os (cause : OsError)
  /-- A file name holds a zero byte. -/
  | zeroByteInName
  /-- A sink took none of the bytes offered to it. -/
  | nothingWritten
  /-- Any other failure, with its own words. -/
  | described (kind : IoErrorKind) (message : String)
deriving DecidableEq, Repr

def IoError.message : IoError → String
  | os cause => cause.message
  | zeroByteInName => "file name contained an unexpected NUL byte"
  | nothingWritten => "failed to write whole buffer"
  | described _ message => message

/-- What takes bytes, as it is seen by those who write: a file, a stream or a sink. -/
structure Writer (m : Type → Type) where
  write : Bytes → m (Except IoError Unit)
  flush : m (Except IoError Unit)

/-- How a full sink meets a byte. -/
inductive WhenFull where
  | fails (error : IoError)
  | takesNothing
deriving DecidableEq, Repr

structure Sink where
  /-- The room of the sink; `none` is without end. -/
  limit : Option Nat := none
  whenFull : WhenFull := .takesNothing
  /-- What a flush fails with, if it does. -/
  flushError : Option IoError := none
  stored : Bytes := #[]
  flushes : Nat := 0
deriving DecidableEq, Repr

namespace Sink

def unlimited : Sink := {}

def fullError (s : Sink) : IoError :=
  match s.whenFull with
  | .fails error => error
  | .takesNothing => .nothingWritten

/-- How many of `n` more bytes fit. -/
def room (s : Sink) (n : Nat) : Nat :=
  match s.limit with
  | none => n
  | some limit => min n (limit - s.stored.size)

/-- Whether all of `n` more bytes fit. -/
def verdict (s : Sink) (n : Nat) : Except IoError Unit :=
  if s.room n < n then .error s.fullError else .ok ()

/-- The room and the verdict are taken before the sink changes, which can then
grow in place. -/
def write (s : Sink) (chunk : Bytes) : Sink × Except IoError Unit :=
  let fitting := chunk.take (s.room chunk.size)
  let verdict := s.verdict chunk.size
  match s with
  | ⟨limit, whenFull, flushError, stored, flushes⟩ =>
    (⟨limit, whenFull, flushError, stored ++ fitting, flushes⟩, verdict)

def flush (s : Sink) : Sink × Except IoError Unit :=
  let verdict := match s.flushError with
    | some error => .error error
    | none => .ok ()
  ({ s with flushes := s.flushes + 1 }, verdict)

theorem stored_write (s : Sink) (chunk : Bytes) :
    (s.write chunk).1.stored = s.stored ++ chunk.take (s.room chunk.size) := rfl

theorem room_le (s : Sink) (n : Nat) : s.room n ≤ n := by
  unfold room
  split
  · exact Nat.le_refl n
  · exact Nat.min_le_left ..

theorem verdict_eq_ok_iff (s : Sink) (n : Nat) : s.verdict n = .ok () ↔ s.room n = n := by
  have := s.room_le n
  unfold verdict
  split <;> simp <;> omega

theorem write_unlimited (s : Sink) (chunk : Bytes) (h : s.limit = none) :
    s.write chunk = ({ s with stored := s.stored ++ chunk }, .ok ()) := by
  simp [write, verdict, room, h, Array.take]

/-- A writer to a sink that is a part of something larger. -/
def within {σ : Type} (get : σ → Sink) (put : Sink → σ → σ) : Writer (StateM σ) where
  write chunk whole :=
    let (s, verdict) := (get whole).write chunk
    (verdict, put s whole)
  flush whole :=
    let (s, verdict) := (get whole).flush
    (verdict, put s whole)

/-- Hands a sink to a program that writes. -/
def run {α : Type} (s : Sink) (program : Writer (StateM Sink) → StateM Sink α) : Sink × α :=
  let (a, s) := program (within id fun s _ => s) s
  (s, a)

example : (write { limit := some 3 } (Utf8.encode "abcd")).1.stored = Utf8.encode "abc" := by
  decide

end Sink

end Chip8
