import Chip8.Job

/-!
# Command-line arguments

Arguments are read from left to right as items. An option that takes a value
takes the argument behind it as it is, even one that begins with a hyphen. The
last output and the last base count, and there has to be exactly one program. A
request for help ends the reading.
-/

namespace Chip8.Command

inductive UsageError where
  | missingValue (option : String)
  | invalidAddress (text : String)
  | unknownOption (text : String)
  | severalRoms
  | noRom
deriving DecidableEq, Repr

def UsageError.message : UsageError → String
  | missingValue option => "missing value for " ++ option
  | invalidAddress text => "invalid hex address: " ++ text
  | unknownOption text => "unknown option: " ++ text
  | severalRoms => "multiple rom paths provided"
  | noRom => "missing rom path"

def withoutRadix : List Char → List Char
  | '0' :: 'x' :: digits => digits
  | '0' :: 'X' :: digits => digits
  | digits => digits

def withoutPlus : List Char → List Char
  | '+' :: digits => digits
  | digits => digits

/-- An address in base sixteen: `0x` or `0X` if wanted, a plus if wanted, and at
least one digit. Leading zeros do not matter, and a value of more than sixteen
bits is no address. -/
def readAddress (text : String) : Except UsageError UInt16 :=
  let digits := withoutPlus (withoutRadix text.toList)
  if digits = [] then .error (.invalidAddress text)
  else
    match Hex.valueFrom 0 digits with
    | some n => if n < UInt16.size then .ok (UInt16.ofNat n) else .error (.invalidAddress text)
    | none => .error (.invalidAddress text)

example : readAddress "0x+0600" = .ok 0x600 := by rfl
example : readAddress "10000" = .error (.invalidAddress "10000") := by rfl

inductive Item where
  | help
  | quiet
  | verbose
  | output (path : Path)
  | base (load : UInt16)
  | rom (path : Path)
deriving DecidableEq, Repr

/-- An argument that is neither an option with a value nor a program. -/
def flag? (arg : Bytes) : Option Item :=
  if arg = Utf8.encode "--help" ∨ arg = Utf8.encode "-h" then some .help
  else if arg = Utf8.encode "--quiet" ∨ arg = Utf8.encode "-q" then some .quiet
  else if arg = Utf8.encode "--verbose" ∨ arg = Utf8.encode "-v" then some .verbose
  else none

def isOutput (arg : Bytes) : Bool := arg = Utf8.encode "-o" ∨ arg = Utf8.encode "--output"

def isBase (arg : Bytes) : Bool := arg = Utf8.encode "-b" ∨ arg = Utf8.encode "--base"

def hyphen : UInt8 := 0x2D

/-- The item that an argument begins, and the arguments behind the item. -/
def readItem (arg : Bytes) (rest : List Bytes) : Except UsageError (Item × List Bytes) :=
  match flag? arg with
  | some item => .ok (item, rest)
  | none =>
    if isOutput arg then
      match rest with
      | [] => .error (.missingValue "-o")
      | path :: rest => .ok (.output path, rest)
    else if isBase arg then
      match rest with
      | [] => .error (.missingValue "--base")
      | value :: rest => (readAddress (Utf8.decode value)).map fun load => (.base load, rest)
    else if arg[0]? = some hyphen then .error (.unknownOption (Utf8.decode arg))
    else .ok (.rom arg, rest)

theorem length_readItem_le {arg : Bytes} {rest after : List Bytes} {item : Item}
    (h : readItem arg rest = .ok (item, after)) : after.length ≤ rest.length := by
  unfold readItem at h
  split at h
  · cases h
    exact Nat.le_refl _
  · split at h
    · split at h
      · cases h
      · cases h
        simp
    · split at h
      · split at h
        · cases h
        · next value rest =>
          cases hr : readAddress (Utf8.decode value) with
          | error e => simp [hr, Except.map] at h
          | ok load =>
            simp only [hr, Except.map, Except.ok.injEq, Prod.mk.injEq] at h
            simp [← h.2]
      · split at h
        · cases h
        · cases h
          exact Nat.le_refl _

/-- What the items read so far ask for. -/
structure Request where
  rom : Option Path := none
  output : Option Path := none
  load : UInt16 := Address.defaultLoad
  report : Bool := true
  verbose : Bool := false
deriving DecidableEq, Repr

def Request.add (r : Request) : Item → Except UsageError Request
  | .help => .ok r
  | .quiet => .ok { r with report := false }
  | .verbose => .ok { r with verbose := true }
  | .output path => .ok { r with output := some path }
  | .base load => .ok { r with load }
  | .rom path => if r.rom.isSome then .error .severalRoms else .ok { r with rom := some path }

inductive Invocation where
  | help
  | run (job : Job) (verbose : Bool)
deriving DecidableEq, Repr

def Request.finish (r : Request) : Except UsageError Invocation :=
  match r.rom with
  | none => .error .noRom
  | some rom =>
    let job : Job := { rom, output := r.output, config := { load := r.load }, report := r.report }
    .ok (.run job r.verbose)

def readFrom (r : Request) : List Bytes → Except UsageError Invocation
  | [] => r.finish
  | arg :: rest =>
    match h : readItem arg rest with
    | .error e => .error e
    | .ok (.help, _) => .ok .help
    | .ok (item, after) =>
      have := length_readItem_le h
      match r.add item with
      | .error e => .error e
      | .ok r => readFrom r after
termination_by args => args.length
decreasing_by simp; omega

/-- Reads the whole command line. -/
def read (args : List Bytes) : Except UsageError Invocation := readFrom {} args

end Chip8.Command
