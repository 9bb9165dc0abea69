import Chip8.Disassembly

/-!
# Sessions

A host program that shows disassemblies keeps a session: it sets a load address,
and each further request is answered for that address, from the first word on.
An answer may put lines on the host's console. Results are handed over as values of
the host's own; how they are converted is up to the host, and may fail.
-/

namespace Chip8.Session

/-- One line of a listing, ready to be shown. -/
structure Row where
  address : Nat
  word : Word
  reachable : Bool
  text : String
deriving DecidableEq, Repr

structure Result where
  rows : List Row
  reachable : Nat
  trailing : Option UInt8
  report : List Report.Event
deriving DecidableEq, Repr

def Row.ofLine (l : Line) : Row where
  address := l.address
  word := l.word
  reachable := l.isCode
  text := l.text

/-- What is told of a disassembly, with the report that was heard of it. -/
def Result.of (d : Disassembly) (report : List Report.Event) : Result where
  rows := d.listing.lines.toList.map Row.ofLine
  reachable := d.reachability.count
  trailing := d.image.trailing
  report := report

inductive Request where
  | setLoad (load : UInt16)
  | disassemble (bytes : Bytes)
  | listingText (bytes : Bytes)
  | words (bytes : Bytes)
  | log (message : String)
deriving DecidableEq, Repr

/-- What a host is told; `V` are its values. -/
inductive Answer (V : Type) where
  | done
  | value (v : V)
  | text (text : String)
  | words (words : Array Word)
  | refused (error : ConfigError)
  /-- The result could not be converted, and this value says why. -/
  | unconverted (v : V)
deriving DecidableEq, Repr

def Answer.ofConverted {V : Type} : Except V V → Answer V
  | .ok v => .value v
  | .error v => .unconverted v

structure Reply (V : Type) where
  answer : Answer V
  console : List String := []
  records : List Log.Record := []
deriving DecidableEq, Repr

end Session

/-- All that a session remembers. -/
structure Session where
  load : UInt16 := Address.defaultLoad
deriving DecidableEq, Repr

namespace Session

def config (s : Session) : Config := { load := s.load }

def summaryLine (r : Result) : String :=
  "Disassembled " ++ toString r.rows.length ++ " words, " ++ toString r.reachable ++ " reachable"

section

variable {V : Type} (convert : Result → Except V V)

/-- The console is told of a result before it is converted. -/
def replyToDisassemble (s : Session) (bytes : Bytes) : Reply V :=
  let (outcome, signals) := heard s.config bytes
  let records := Signal.records signals
  match outcome with
  | .error e => { answer := .refused e, records }
  | .ok d =>
    let result := Result.of d (Signal.events signals)
    { answer := .ofConverted (convert result)
      console := [summaryLine result]
      records }

def replyToListingText (s : Session) (bytes : Bytes) : Reply V :=
  let (outcome, signals) := heard s.config bytes
  let records := Signal.records signals
  match outcome with
  | .error e => { answer := .refused e, records }
  | .ok d => { answer := .text d.listing.text, records }

/-- The words do not depend on the load address, so it is not looked at. -/
def replyToWords (bytes : Bytes) : Reply V :=
  let (image, signals) := Image.load Signal.keep bytes #[]
  { answer := .words image.words, records := Signal.records signals.toList }

def reply (s : Session) : Request → Reply V
  | .setLoad _ => { answer := .done }
  | .disassemble bytes => s.replyToDisassemble convert bytes
  | .listingText bytes => s.replyToListingText bytes
  | .words bytes => replyToWords bytes
  | .log message => { answer := .done, console := [message] }

/-- Only setting the load address changes the session. -/
def after (s : Session) : Request → Session
  | .setLoad load => { s with load }
  | _ => s

/-- The replies to requests made one after the other. -/
def replies (s : Session) : List Request → List (Reply V)
  | [] => []
  | r :: rs => s.reply convert r :: (s.after r).replies rs

end

end Session

end Chip8
