import Chip8.Config
import Chip8.Listing
import Chip8.Report

/-!
# Disassembling a program

A disassembly is an image together with the analysis of its words, and its listing
is a view of them. While it is made, events and log records come out in one order; a
signal is either of them, and who asks for a disassembly hears every signal when it
comes out.
-/

namespace Chip8

inductive Signal where
  | event (event : Report.Event)
  | record (record : Log.Record)
deriving DecidableEq, Repr

namespace Signal

def event? : Signal → Option Report.Event
  | event e => some e
  | record _ => none

def record? : Signal → Option Log.Record
  | event _ => none
  | record r => some r

def events (signals : List Signal) : List Report.Event := signals.filterMap event?

def records (signals : List Signal) : List Log.Record := signals.filterMap record?

end Signal

structure Disassembly where
  config : Config
  image : Image
  reachability : Reachability
deriving DecidableEq, Repr

section

variable {m : Type → Type} [Monad m] (hear : Signal → m Unit)

/-- Takes the bytes of a program as an image. -/
def Image.load (bytes : Bytes) : m Image := do
  let image := Image.ofBytes bytes
  image.warnings.forM fun r => hear (.record r)
  return image

namespace Disassembly

def ofImage (config : Config) (image : Image) : Disassembly where
  config := config
  image := image
  reachability := Reachability.analyze image.words config.entry config.load

def listing (d : Disassembly) : Listing :=
  Listing.build d.image.words d.reachability d.config.load

def classification (d : Disassembly) (index : Nat) (w : Word) : Report.Event :=
  .classified index (Address.ofIndex d.config.load index) w (d.reachability.isReached index)

/-- Disassembles an image. The analysis speaks when it is done, before its end is
reported. -/
def make (config : Config) (image : Image) : m Disassembly := do
  hear (.event (.analysisStarted image.size))
  let d := ofImage config image
  hear (.record d.reachability.record)
  hear (.event (.analysisFinished d.reachability.count image.size))
  image.words.toList.zipIdx.forM fun (w, i) => hear (.event (d.classification i w))
  image.trailing.toList.forM fun byte => hear (.event (.trailingByte byte))
  return d

end Disassembly

/-- Disassembles the bytes of a program, once its configuration is found to be valid. -/
def disassembleWith (config : Config) (bytes : Bytes) : m (Except ConfigError Disassembly) := do
  match config.validate with
  | .error e => return .error e
  | .ok () =>
    let image ← Image.load hear bytes
    return .ok (← Disassembly.make hear config image)

end

/-- Keeps signals. -/
def Signal.keep (s : Signal) : StateM (Array Signal) Unit := modify (·.push s)

/-- What disassembling the bytes of a program comes to, and all that is heard of it. -/
def heard (config : Config) (bytes : Bytes) : Except ConfigError Disassembly × List Signal :=
  let (outcome, signals) := disassembleWith Signal.keep config bytes #[]
  (outcome, signals.toList)

def disassemble (config : Config) (bytes : Bytes) : Except ConfigError Disassembly :=
  (heard config bytes).1

def told (config : Config) (bytes : Bytes) : List Signal := (heard config bytes).2

example : (disassemble {} #[0x12, 0x04, 0xF0, 0xF0, 0x12, 0x04]).toOption.map (·.listing.text) =
    some "200: jmp 204\n202: db  F0F0\n204: jmp 204\n" := by decide +kernel

end Chip8
