import Chip8.Proofs.Command.Running
import Chip8.Proofs.Log.Standard

/-!
# What a run of the command shows

Standard output carries the usage or the listing and nothing else, and it stays empty when
anything fails. Standard error carries the report and the records in the order in which
they came out: the reading of the program, what there is to say about its bytes, the begin
of the analysis, its record, its end, and the words one by one.
-/

namespace Chip8.Command

open Log (Backend Documented Record labelled)
open World (surroundings Tells)

/-! ## The lines on standard error -/

/-- What there is to say about the bytes: that there are too many, and that one is left
over. -/
def warningLines (bytes : Bytes) : List String :=
  (if 0xE00 < bytes.size then
    [labelled "WARN  disasm_core::image" ("image is " ++ toString bytes.size ++
      " bytes, larger than the 3584 bytes of CHIP-8 program memory")] else []) ++
  (Image.unpaired bytes).map fun byte => labelled "WARN  disasm_core::image"
    ("ignoring dangling trailing byte " ++ Hex.padded 2 byte.toNat)

/-- The line about each word: its address, the word and its mark. -/
def wordLine (load : UInt16) (bytes : Bytes) (r : Reachability) (i : Nat) : String :=
  Hex.padded 3 (load.toNat + 2 * i) ++ ": " ++ Hex.padded 4 (Image.wordIn bytes i).toNat ++
    (if r.isReached i then " reachable\n" else " unreachable\n")

/-- What the report says when the analysis is done. -/
def resultLines (load : UInt16) (bytes : Bytes) (r : Reachability) : List String :=
  ("ANALYSIS DONE! " ++ toString r.count ++ " of " ++ toString (bytes.size / 2) ++
    " words reachable. Result:\n") ::
  (List.range (bytes.size / 2)).map (wordLine load bytes r) ++
  (Image.unpaired bytes).map fun byte =>
    "trailing byte " ++ Hex.padded 2 byte.toNat ++ " ignored\n"

/-- What a run that succeeds leaves on standard error. The report is left out if it is not
wanted, and the records about the run itself are only shown if they are asked for. -/
def shownLines (backend : Backend) (job : Job) (verbose : Bool) (bytes : Bytes)
    (r : Reachability) : List String :=
  (if verbose then [(backend "debug").print (Job.readRecord bytes.size job.rom)] else []) ++
  warningLines bytes ++
  (if job.report then ["Analysing reachability...\n"] else []) ++
  (if verbose then
    [labelled "DEBUG disasm_core::analysis" ("reachability: " ++ toString r.count ++ " of " ++
      toString (bytes.size / 2) ++ " words are code, " ++ toString r.dropped ++
      " out-of-range targets dropped")] else []) ++
  (if job.report then resultLines job.config.load bytes r else []) ++
  (if verbose then
    [labelled "INFO  c8dasm" (toString r.count ++ " of " ++ toString (bytes.size / 2) ++
      " words listed as code")] else [])

/-! ## The records as lines -/

section

variable {backend : Backend} (hbackend : Documented backend)

/-- The logger of a run whose surroundings ask for no filter. -/
def defaultLogger (backend : Backend) (verbose : Bool) : Log.Logger :=
  backend (fallbackFilter verbose)

/-- The names of two levels are all filters that such a run sets up its logger with. -/
theorem fallbackFilter_eq (verbose : Bool) :
    fallbackFilter verbose = (if verbose then Log.Level.debug else Log.Level.warn).filter := by
  cases verbose with
  | true => rfl
  | false => rfl

include hbackend

theorem greeting_defaultLogger (verbose : Bool) : (defaultLogger backend verbose).greeting = "" := by
  rw [defaultLogger, fallbackFilter_eq]
  exact hbackend.greeting _

/-- Warnings are always printed. -/
theorem print_warning (verbose : Bool) {source : Log.Source} {name message : String}
    (hname : Log.label .warn source = name) (hmessage : Visible message) :
    (defaultLogger backend verbose).print ⟨.warn, source, message⟩ = labelled name message := by
  have hrank : Log.Level.warn.rank ≤ (if verbose then Log.Level.debug else Log.Level.warn).rank := by
    cases verbose <;> decide
  rw [defaultLogger, fallbackFilter_eq, hbackend.prints _ _ hrank hmessage, hname]

/-- Everything else is only printed if more is asked for. -/
theorem print_detail (verbose : Bool) {r : Record} (hlevel : r.level = .info ∨ r.level = .debug) :
    (defaultLogger backend verbose).print r =
      String.join (if verbose then [(backend "debug").print r] else []) := by
  cases verbose with
  | true => exact String.empty_append.symm
  | false =>
    have hrank : Log.Level.warn.rank < r.level.rank := by
      rcases hlevel with h | h <;> (rw [h]; decide)
    exact hbackend.stops .warn r hrank

theorem print_debug {level : Log.Level} {source : Log.Source} {name message : String}
    (hlevel : level = .info ∨ level = .debug) (hname : Log.label level source = name)
    (hmessage : Visible message) :
    (backend "debug").print ⟨level, source, message⟩ = labelled name message := by
  have hrank : level.rank ≤ Log.Level.debug.rank := by
    rcases hlevel with rfl | rfl <;> decide
  rw [← hname]
  exact hbackend.prints .debug ⟨level, source, message⟩ hrank hmessage

theorem print_record (r : Reachability) :
    (backend "debug").print r.record = labelled "DEBUG disasm_core::analysis"
      ("reachability: " ++ toString r.count ++ " of " ++ toString r.size ++
        " words are code, " ++ toString r.dropped ++ " out-of-range targets dropped") := by
  have hcounts : Visible ("reachability: " ++ toString r.count ++ " of " ++ toString r.size) :=
    .append (.append (.append (by decide) (.nat _)) (by decide)) (.nat _)
  exact print_debug hbackend (.inr rfl) (by decide)
    (.append (.append (hcounts.append (by decide)) (.nat _)) (by decide))

theorem print_summary (s : Job.Summary) :
    (backend "debug").print s.record = labelled "INFO  c8dasm"
      (toString s.reachable ++ " of " ++ toString s.words ++ " words listed as code") :=
  print_debug hbackend (.inl rfl) (by decide)
    (.append (.append (.append (.nat _) (by decide)) (.nat _)) (by decide))

theorem print_readRecord (count : Nat) {rom : Path} (hrom : Visible rom.display) :
    (backend "debug").print (Job.readRecord count rom) =
      labelled "DEBUG disassembler::pipeline"
        ("read " ++ toString count ++ " bytes from " ++ rom.display) :=
  print_debug hbackend (.inr rfl) (by decide)
    (.append (.append (.append (by decide) (.nat _)) (by decide)) hrom)

/-- What there is to say about the bytes is printed line by line. -/
theorem map_print_warnings (verbose : Bool) (bytes : Bytes) :
    (Image.ofBytes bytes).warnings.map (defaultLogger backend verbose).print =
      warningLines bytes := by
  have hoversize : (defaultLogger backend verbose).print (Image.oversizeWarning bytes.size) =
      labelled "WARN  disasm_core::image" ("image is " ++ toString bytes.size ++
        " bytes, larger than the 3584 bytes of CHIP-8 program memory") := by
    have hcount : Visible ("image is " ++ toString bytes.size) := .append (by decide) (.nat _)
    rw [Image.oversizeWarning_eq]
    exact print_warning hbackend verbose (by decide) (hcount.append (by decide))
  have htrailing : ∀ byte, (defaultLogger backend verbose).print (Image.trailingWarning byte) =
      labelled "WARN  disasm_core::image"
        ("ignoring dangling trailing byte " ++ Hex.padded 2 byte.toNat) := fun byte =>
    print_warning hbackend verbose (by decide) (.append (by decide) (.padded 2 byte.toNat))
  rw [Image.warnings_ofBytes, List.map_append, List.map_map, warningLines, ← hoversize]
  refine congrArg₂ _ ?_ (List.map_congr_left fun byte _ => htrailing byte)
  split_ifs <;> rfl

end

/-! ## All of standard error -/

/-- What a disassembly tells on the way, in its order. The analysis speaks between the two
parts of the report. -/
theorem allSaid_signals (w : World) (report : Bool) (d : Disassembly) :
    Job.allSaid w report d.signals =
      String.join (d.image.warnings.map w.printed) ++
        String.join (if report then ["Analysing reachability...\n"] else []) ++
        w.printed d.reachability.record ++
        String.join (if report then d.findings.map Report.Event.line else []) := by
  have hstarted : Job.said w report (.event (.analysisStarted d.image.size)) =
      String.join (if report then ["Analysing reachability...\n"] else []) := by
    cases report with
    | true => rfl
    | false => rfl
  rw [Disassembly.signals, Job.allSaid_append, Job.allSaid_map_record, Job.allSaid_cons,
    Job.allSaid_cons, Job.allSaid_map_event, hstarted, Job.said]
  simp only [String.append_assoc]

theorem map_line_findings (config : Config) (bytes : Bytes) :
    (Disassembly.ofImage config (.ofBytes bytes)).findings.map Report.Event.line =
      resultLines config.load bytes
        (Disassembly.ofImage config (.ofBytes bytes)).reachability := by
  rw [Disassembly.findings_ofBytes, List.map_cons, List.map_append, List.map_map, List.map_map]
  rfl

/-- Line by line, all that is said in a run with a logger of its own choice, from the reading of
the program to the closing record. -/
theorem allSaid_append_closing {backend : Backend} (hbackend : Documented backend) {w : World}
    {verbose : Bool} (hlogger : w.logger = some (defaultLogger backend verbose)) {job : Job}
    {bytes : Bytes} {d : Disassembly} (hd : disassemble job.config bytes = .ok d) :
    Job.allSaid w job.report (job.toldOf bytes d) ++ closing w (.ok (.of d)) =
      String.join (shownLines backend job verbose bytes d.reachability) := by
  obtain ⟨-, rfl⟩ := eq_of_disassemble hd
  have hprinted : w.printed = (defaultLogger backend verbose).print := by
    funext r
    rw [World.printed, hlogger, Option.elim_some]
  have hread : Job.said w job.report (.record (Job.readRecord bytes.size job.rom)) = _ :=
    (congrFun hprinted _).trans (print_detail hbackend verbose (.inr rfl))
  have hanalysis (r : Reachability) : w.printed r.record = _ :=
    (congrFun hprinted _).trans (print_detail hbackend verbose (.inr rfl))
  have hsummary (s : Job.Summary) : w.printed s.record = _ :=
    (congrFun hprinted _).trans (print_detail hbackend verbose (.inl rfl))
  have hwarnings : (Disassembly.ofImage job.config (.ofBytes bytes)).image.warnings.map w.printed =
      warningLines bytes := by
    rw [hprinted]
    exact map_print_warnings hbackend verbose bytes
  have himage : (Disassembly.ofImage job.config (.ofBytes bytes)).image.size = bytes.size / 2 :=
    Image.size_ofBytes bytes
  rw [Job.toldOf, Job.allSaid_cons, allSaid_signals, closing, hread, hanalysis, hsummary, hwarnings,
    map_line_findings, print_record hbackend, print_summary hbackend,
    Disassembly.size_reachability, Image.size_ofBytes, shownLines]
  simp only [Job.Summary.of, himage, String.join_append, String.append_assoc]

/-! ## All of a run -/

section

variable {args : List Bytes} {job : Job} {verbose : Bool} {directory : Directory}

theorem run_of_failure (backend : Backend) (h : read args = .ok (.run job verbose))
    {failure : Failure} (hfailure : (job.run directory Sink.unlimited).result = .error failure) :
    (∃ told, run backend args none directory =
      { exitCode := 1, stdout := #[]
        stderr := told ++ Utf8.encode ("error: " ++ failure.message ++ "\n")
        directory := (job.run directory Sink.unlimited).directory }) ∧
    ((∀ path place, job.output = some path → directory.create path = .ok place →
        directory.TakesAll place) → (run backend args none directory).directory = directory) := by
  obtain ⟨hexit, hout, hkeeps⟩ := Job.run_of_failed hfailure
  obtain ⟨hcode, hstdout, hdirectory, hstderr⟩ := run_of_job backend none directory h
  rw [hfailure, exitCodeOf, hexit] at hcode
  rw [hfailure, closing, failureText_of_exitCode hexit] at hstderr
  rw [hout] at hstdout
  generalize run backend args none directory = o at *
  obtain ⟨exitCode, stdout, stderr, left⟩ := o
  cases hcode
  cases hstdout
  cases hdirectory
  exact ⟨⟨_, congrArg (Outcome.mk 1 #[] · _) hstderr⟩, hkeeps⟩

/-- How a run looks whose listing of this program has been written. -/
structure Shows (backend : Backend) (job : Job) (verbose : Bool) (directory : Directory)
    (bytes : Bytes) (d : Disassembly) (o : Outcome) : Prop where
  exitCode : o.exitCode = 0
  stdout : o.stdout = if job.output = none then Utf8.encode d.listing.text else #[]
  stderr : o.stderr =
    Utf8.encode (String.join (shownLines backend job verbose bytes d.reachability))
  readLine : Visible job.rom.display →
    (backend "debug").print (Job.readRecord bytes.size job.rom) =
      labelled "DEBUG disassembler::pipeline"
        ("read " ++ toString bytes.size ++ " bytes from " ++ job.rom.display)
  untouched : job.output = none → o.directory = directory
  written : ∀ path, job.output = some path → ∃ place, directory.create path = .ok place ∧
    directory.ChangesAt o.directory place ∧
    o.directory.Holds path place (Utf8.encode d.listing.text)

/-- All that a run says while its listing goes to standard output or to a file. -/
theorem stderr_of_success {backend : Backend} (hbackend : Documented backend)
    (h : read args = .ok (.run job verbose)) {bytes : Bytes} {d : Disassembly}
    (hread : directory.read job.rom = .ok bytes) (hd : disassemble job.config bytes = .ok d)
    (hresult : (job.run directory Sink.unlimited).result = .ok (.of d))
    (hregular : ∀ path place, job.output = some path → directory.create path = .ok place →
      directory.IsRegular place) :
    (run backend args none directory).stderr =
      Utf8.encode (String.join (shownLines backend job verbose bytes d.reachability)) := by
  obtain ⟨-, -, -, hstderr⟩ := run_of_job backend none directory h
  have hstarted := tells_started (w := { directory, filter := none, backend })
    Sink.neverFails_unlimited verbose
  have hsame : (started { directory, filter := none, backend } verbose).directory = directory :=
    hstarted.directory
  have hlogger : (started { directory, filter := none, backend } verbose).logger =
      some (defaultLogger backend verbose) := hstarted.logger
  have hsilent : (started { directory, filter := none, backend } verbose).stderr.stored = #[] := by
    have hgreeting : (loggerOf { directory, filter := none, backend } verbose).greeting = "" :=
      greeting_defaultLogger hbackend verbose
    have hempty : (#[] : Bytes) ++ Utf8.encode "" = #[] := by decide
    rw [hstarted.stored, hgreeting]
    exact hempty
  obtain ⟨w, htells, hperform⟩ := Job.perform_errors hstarted.stderr (hsame.symm ▸ hread) hd
  have hdirectory : w.directory = directory := htells.directory.trans hsame
  obtain ⟨hkept, hkept'⟩ := Job.conclude_keeps (w := w) job d (hdirectory.symm ▸ hregular)
  have hclosing : closing (job.conclude d w).2 (.ok (.of d)) =
      closing (started { directory, filter := none, backend } verbose) (.ok (.of d)) := by
    simp only [closing, World.printed, hkept', htells.logger]
  rw [hperform, hresult, hkept, hclosing, htells.stored, hsilent, Array.empty_append,
    ← Utf8.encode_append, allSaid_append_closing hbackend hlogger hd] at hstderr
  exact hstderr

theorem run_of_success {backend : Backend} (hbackend : Documented backend)
    (h : read args = .ok (.run job verbose)) {summary : Job.Summary}
    (hsummary : (job.run directory Sink.unlimited).result = .ok summary)
    (hregular : ∀ path place, job.output = some path → directory.create path = .ok place →
      directory.IsRegular place) :
    ∃ bytes d, directory.read job.rom = .ok bytes ∧ disassemble job.config bytes = .ok d ∧
      Shows backend job verbose directory bytes d (run backend args none directory) := by
  obtain ⟨bytes, d, hread, hd, rfl, hout, huntouched, hwritten⟩ :=
    Job.run_of_success hsummary hregular
  obtain ⟨hcode, hstdout, hdirectory, -⟩ := run_of_job backend none directory h
  rw [← hdirectory] at huntouched hwritten
  rw [hsummary] at hcode
  exact ⟨bytes, d, hread, hd,
    { exitCode := hcode
      stdout := hstdout.trans hout
      stderr := stderr_of_success hbackend h hread hd hsummary hregular
      readLine := print_readRecord hbackend bytes.size
      untouched := huntouched
      written := hwritten }⟩

end

/-- What a run of the command shows, whatever its arguments and the files, if its logger is one
of the documented kind and its surroundings ask for no filter of records.
A command line that is not understood is answered by the error and the usage, a request for
help by the usage alone, and neither looks at the files.
A run that fails shows nothing on standard output and says last on standard error what went
wrong. It leaves the files as its job does, which has changed none unless a write to one of
them failed.
A run that succeeds shows the listing on standard output, or else the file that was named
holds it, and standard error is told line by line. -/
theorem run_shows (backend : Backend) (hbackend : Documented backend) (args : List Bytes)
    (directory : Directory) :
    (∀ e, read args = .error e → run backend args none directory =
      { exitCode := 2, stdout := #[]
        stderr := Utf8.encode ("error: " ++ e.message ++ "\n" ++ usageScreen), directory }) ∧
    (read args = .ok .help → run backend args none directory =
      { exitCode := 0, stdout := Utf8.encode usageScreen, stderr := #[], directory }) ∧
    ∀ job verbose, read args = .ok (.run job verbose) →
      (∀ failure, (job.run directory Sink.unlimited).result = .error failure →
        (∃ told, run backend args none directory =
          { exitCode := 1, stdout := #[]
            stderr := told ++ Utf8.encode ("error: " ++ failure.message ++ "\n")
            directory := (job.run directory Sink.unlimited).directory }) ∧
        ((∀ path place, job.output = some path → directory.create path = .ok place →
            directory.TakesAll place) →
          (run backend args none directory).directory = directory)) ∧
      ∀ summary, (job.run directory Sink.unlimited).result = .ok summary →
        (∀ path place, job.output = some path → directory.create path = .ok place →
          directory.IsRegular place) →
        ∃ bytes d, directory.read job.rom = .ok bytes ∧ disassemble job.config bytes = .ok d ∧
          Shows backend job verbose directory bytes d (run backend args none directory) := by
  refine ⟨fun _ => run_of_error, run_of_help, ?_⟩
  intro job verbose h
  exact ⟨fun _ => run_of_failure backend h, fun _ => run_of_success hbackend h⟩

/-- A jump to itself and a byte that is left over, in the only file. -/
def oddLength : Directory := ({} : Directory).addFile #[0x72] #[0x12, 0x00, 0xAB]

/-- All records are asked for, and the file `o` for the listing. -/
theorem run_shows_odd_length :
    (run Log.standard (["r", "-v", "-o", "o"].map Utf8.encode) none oddLength).stdout = #[] ∧
      (run Log.standard (["r", "-v", "-o", "o"].map Utf8.encode) none oddLength).stderr =
        Utf8.encode (String.join
          ["[DEBUG disassembler::pipeline] read 3 bytes from r\n",
            "[WARN  disasm_core::image] ignoring dangling trailing byte AB\n",
            "Analysing reachability...\n",
            "[DEBUG disasm_core::analysis] reachability: 1 of 1 words are code, " ++
              "0 out-of-range targets dropped\n",
            "ANALYSIS DONE! 1 of 1 words reachable. Result:\n",
            "200: 1200 reachable\n",
            "trailing byte AB ignored\n",
            "[INFO  c8dasm] 1 of 1 words listed as code\n"]) ∧
      (run Log.standard (["r", "-v", "-o", "o"].map Utf8.encode) none oddLength).directory.read
        #[0x6F] = .ok (Utf8.encode "200: jmp 200\n") := by
  obtain ⟨-, -, hruns⟩ := run_shows Log.standard Log.documented_standard
    (["r", "-v", "-o", "o"].map Utf8.encode) oddLength
  have hasked : read (["r", "-v", "-o", "o"].map Utf8.encode) =
      .ok (.run { rom := #[0x72], output := some #[0x6F] } true) := by decide +kernel
  have hresult : (Job.run { rom := #[0x72], output := some #[0x6F] } oddLength
      Sink.unlimited).result = .ok { words := 1, reachable := 1 } := by decide +kernel
  have hcreate : oddLength.create #[0x6F] = .ok { names := [[0x6F]] } := by decide +kernel
  have hnew : oddLength.at? { names := [[0x6F]] } = none := by rfl
  obtain ⟨-, hsucceeds⟩ := hruns _ _ hasked
  obtain ⟨bytes, d, hread, hd, hshows⟩ := hsucceeds _ hresult (by
    rintro path place ⟨⟩ hplace
    rw [hcreate] at hplace
    cases hplace
    exact Directory.isRegular_of_new hnew)
  have hbytes : oddLength.read #[0x72] = .ok #[0x12, 0x00, 0xAB] := by decide +kernel
  rw [hbytes] at hread
  cases hread
  obtain ⟨-, rfl⟩ := eq_of_disassemble hd
  refine ⟨hshows.stdout, ?_, ?_⟩
  · rw [hshows.stderr, shownLines, hshows.readLine (by decide +kernel)]
    congr 1
    decide +kernel
  · obtain ⟨place, hplace, hchanges, hholds⟩ := hshows.written _ rfl
    have hreadable : (run Log.standard (["r", "-v", "-o", "o"].map Utf8.encode) none
        oddLength).directory.refusal? .read place = none := by
      rw [hchanges.refusal?]
      rfl
    rw [hholds.read hreadable]
    decide +kernel

end Chip8.Command
