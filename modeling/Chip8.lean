import Chip8.Json.Config
import Chip8.Json.Session
import Chip8.Main
import Chip8.Proofs.Walk
import Chip8.Proofs.Recursion
import Chip8.Proofs.ControlFlow
import Chip8.Proofs.Reachability
import Chip8.Proofs.CallStack
import Chip8.Proofs.IndexedJump
import Chip8.Proofs.Agreement
import Chip8.Proofs.Relocation
import Chip8.Proofs.Disassembly
import Chip8.Proofs.Report
import Chip8.Proofs.Directory
import Chip8.Proofs.Job
import Chip8.Proofs.Form
import Chip8.Proofs.Text.Lines
import Chip8.Proofs.Text.Numeral
import Chip8.Proofs.Form.Decode
import Chip8.Proofs.Losslessness
import Chip8.Proofs.Command.Grammar
import Chip8.Proofs.Session
import Chip8.Proofs.Command.Outcome
import Chip8.Proofs.Continuation
import Chip8.Proofs.Reconstruction
import Chip8.Proofs.Command.Verbosity
import Chip8.Proofs.Exploration
import Chip8.Proofs.Termination
import Chip8.Proofs.Listing.Writing
import Chip8.Proofs.Json.Spelling
import Chip8.Proofs.Json.Instruction
import Chip8.Proofs.Json.Listing
import Chip8.Proofs.Json.Session
import Chip8.Proofs.Json.Exchange
import Chip8.Proofs.Command.Address
