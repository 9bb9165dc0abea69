import Chip8.Proofs.Disassembly
import Chip8.Proofs.Job.Stages

/-!
# The order of failures

A job can fail at four things: reading its program, its configuration, printing the report
and writing the listing. They come in this order, and what comes first decides the result
before anything that comes later has been touched. Only a job that has come as far as its
listing changes a file, which may then be the program's own.
-/

namespace Chip8.Job

open World (surroundings toCaller Tells)

variable {job : Job} {directory : Directory} {sink : Sink} {bytes : Bytes} {d : Disassembly}
  {path : Path} {place : Place}

/-! ## The stages of a run -/

/-- The world in which a job is run. -/
def start (directory : Directory) (sink : Sink) : World := { directory, caller := sink }

theorem neverFails_start (directory : Directory) (sink : Sink) :
    (start directory sink).stderr.NeverFails := Sink.neverFails_unlimited

/-- What is left of a job that has come to this. -/
def finished (r : Except Failure Summary × World) : Finished where
  result := r.1
  directory := r.2.directory
  sink := r.2.caller
  records := r.2.records
  stdout := r.2.stdout.stored
  stderr := r.2.stderr.stored

theorem run_eq (job : Job) (directory : Directory) (sink : Sink) :
    job.run directory sink =
      finished (job.perform surroundings toCaller (start directory sink)) := rfl

/-- A report that could be delivered is in the sink as a whole. -/
theorem stored_reporting (h : (job.reporting sink d).2 = .ok ()) :
    (job.reporting sink d).1.stored =
      sink.stored ++ if job.report then Utf8.encode (Report.text d.events) else #[] := by
  rw [reporting] at h ⊢
  split_ifs at h ⊢ with hreport
  · exact sink.stored_deliver_of_ok h
  · exact (Array.append_empty).symm

/-- The outcome of a job as far as it can be seen from outside. -/
structure Ends (f : Finished) (result : Except Failure Summary) (directory : Directory)
    (sink : Sink) : Prop where
  result : f.result = result
  directory : f.directory = directory
  sink : f.sink = sink

theorem run_of_unreadable {e : IoError} (h : directory.read job.rom = .error e) :
    job.run directory sink = finished (.error (.readRom job.rom e), start directory sink) := by
  rw [run_eq, perform_of_unreadable (w := start directory sink) h]

theorem run_of_invalid {e : ConfigError} (hread : directory.read job.rom = .ok bytes)
    (h : job.config.validate = .error e) :
    job.run directory sink = finished
      (.error (.config e), (start directory sink).log (readRecord bytes.size job.rom)) := by
  rw [run_eq, perform_of_invalid (w := start directory sink) hread h]

theorem ends_of_unreadable {e : IoError} (h : directory.read job.rom = .error e) :
    Ends (job.run directory sink) (.error (.readRom job.rom e)) directory sink := by
  rw [run_of_unreadable h]
  exact ⟨rfl, rfl, rfl⟩

theorem ends_of_invalid {e : ConfigError} (hread : directory.read job.rom = .ok bytes)
    (h : job.config.validate = .error e) :
    Ends (job.run directory sink) (.error (.config e)) directory sink := by
  have hlog := World.tells_log (neverFails_start directory sink) (readRecord bytes.size job.rom)
  rw [run_of_invalid hread h]
  exact ⟨rfl, hlog.directory, World.caller_log _ _⟩

theorem ends_of_unreported {e : IoError} (hread : directory.read job.rom = .ok bytes)
    (hd : disassemble job.config bytes = .ok d) (h : (job.reporting sink d).2 = .error e) :
    Ends (job.run directory sink) (.error (.writeReport e)) directory
      (job.reporting sink d).1 := by
  obtain ⟨w, hcaller, htells, hperform⟩ :=
    perform_toCaller (neverFails_start directory sink) hread hd
  rw [run_eq, hperform, show (job.reporting (start directory sink).caller d).2 = .error e from h]
  exact ⟨rfl, htells.directory, hcaller⟩

/-- A job whose report is out has only its listing to write, in a world that is what it was
but for what has been told. -/
theorem run_of_reported (hread : directory.read job.rom = .ok bytes)
    (hd : disassemble job.config bytes = .ok d) (h : (job.reporting sink d).2 = .ok ()) :
    ∃ w, w.caller = (job.reporting sink d).1 ∧
      Tells (start directory sink) w (Signal.records (job.toldOf bytes d)) "" ∧
      job.run directory sink = finished (job.conclude d w) := by
  obtain ⟨w, hcaller, htells, hperform⟩ :=
    perform_toCaller (neverFails_start directory sink) hread hd
  refine ⟨w, hcaller, ?_, ?_⟩
  · -- there is no logger to print anything
    rwa [allSaid_of_no_logger rfl] at htells
  · rw [run_eq, hperform, show (job.reporting (start directory sink).caller d).2 = .ok () from h]

/-- Before its listing, a job has stopped with nothing written, or its report is out. -/
theorem run_stops_or_concludes (job : Job) (directory : Directory) (sink : Sink) :
    (∃ failure, failure.exitCode = 1 ∧ (job.run directory sink).result = .error failure ∧
      (job.run directory sink).directory = directory ∧ (job.run directory sink).stdout = #[]) ∨
    ∃ bytes d w, directory.read job.rom = .ok bytes ∧ disassemble job.config bytes = .ok d ∧
      (job.reporting sink d).2 = .ok () ∧
      Tells (start directory sink) w (Signal.records (job.toldOf bytes d)) "" ∧
      job.run directory sink = finished (job.conclude d w) := by
  cases hread : directory.read job.rom with
  | error e =>
    left
    refine ⟨.readRom job.rom e, rfl, ?_⟩
    rw [run_of_unreadable hread]
    exact ⟨rfl, rfl, rfl⟩
  | ok bytes =>
    cases hvalid : job.config.validate with
    | error e =>
      left
      refine ⟨.config e, rfl, ?_⟩
      rw [run_of_invalid hread hvalid]
      exact ⟨rfl, rfl, rfl⟩
    | ok u =>
      have hd := disassemble_of_ok hvalid bytes
      cases hreport : (job.reporting sink (.ofImage job.config (.ofBytes bytes))).2 with
      | error e =>
        left
        obtain ⟨w, -, htells, hperform⟩ :=
          perform_toCaller (neverFails_start directory sink) hread hd
        refine ⟨.writeReport e, rfl, ?_⟩
        rw [run_eq, hperform, show (job.reporting (start directory sink).caller _).2 = _ from hreport]
        exact ⟨rfl, htells.directory, congrArg Sink.stored htells.stdout⟩
      | ok u =>
        right
        obtain ⟨w, -, htells, hrun⟩ := run_of_reported hread hd hreport
        exact ⟨bytes, _, w, rfl, hd, hreport, htells, hrun⟩

/-- A job that failed has shown no listing. It never fails for how it was asked for, and unless
the writing of its file can fail, it has changed none. -/
theorem run_of_failed {failure : Failure} (h : (job.run directory sink).result = .error failure) :
    failure.exitCode = 1 ∧ (job.run directory sink).stdout = #[] ∧
      ((∀ path place, job.output = some path → directory.create path = .ok place →
          directory.TakesAll place) → (job.run directory sink).directory = directory) := by
  rcases run_stops_or_concludes job directory sink with
    ⟨failure', hcode, hresult, hdirectory, hstdout⟩ | ⟨bytes, d, w, -, -, -, htells, hrun⟩
  · rw [h] at hresult
    cases hresult
    exact ⟨hcode, hstdout, fun _ => hdirectory⟩
  · have hdirectory : w.directory = directory := htells.directory
    have hout : w.stdout = Sink.unlimited := htells.stdout
    have hfailed : (writeListing surroundings d.listing job.output w).1 = .error failure := by
      rw [hrun] at h
      cases hwrite : (writeListing surroundings d.listing job.output w).1 with
      | ok u =>
        simp only [finished, conclude, hwrite] at h
        cases h
      | error failure' =>
        simp only [finished, conclude, hwrite] at h
        cases h
        rfl
    obtain ⟨hcode, hstdout, hkeeps⟩ :=
      writeListing_of_failed (hout ▸ Sink.neverFails_unlimited) htells.stderr hfailed
    rw [hdirectory] at hkeeps
    rw [hrun]
    exact ⟨hcode, congrArg Sink.stored (hstdout.trans hout), hkeeps⟩

/-- A job that succeeded has written its listing. Standard output holds it, or else the file
that was named. -/
theorem run_of_success {summary : Summary} (h : (job.run directory sink).result = .ok summary)
    (hregular : ∀ path place, job.output = some path → directory.create path = .ok place →
      directory.IsRegular place) :
    ∃ bytes d, directory.read job.rom = .ok bytes ∧ disassemble job.config bytes = .ok d ∧
      summary = .of d ∧
      (job.run directory sink).stdout =
        (if job.output = none then Utf8.encode d.listing.text else #[]) ∧
      (job.output = none → (job.run directory sink).directory = directory) ∧
      ∀ path, job.output = some path → ∃ place, directory.create path = .ok place ∧
        directory.ChangesAt (job.run directory sink).directory place ∧
        (job.run directory sink).directory.Holds path place (Utf8.encode d.listing.text) := by
  rcases run_stops_or_concludes job directory sink with
    ⟨failure, -, hresult, -⟩ | ⟨bytes, d, w, hread, hd, -, htells, hrun⟩
  · rw [h] at hresult
    cases hresult
  · have hdirectory : w.directory = directory := htells.directory
    have hout : w.stdout = Sink.unlimited := htells.stdout
    rw [hrun] at h ⊢
    refine ⟨bytes, d, hread, hd, ?_⟩
    cases houtput : job.output with
    | none =>
      obtain ⟨w', hconclude, hsame, hstored⟩ := conclude_of_no_output houtput hout d
      rw [hconclude] at h ⊢
      cases h
      exact ⟨rfl, hstored, fun _ => hsame.trans hdirectory, by simp⟩
    | some path =>
      cases hcreate : directory.create path with
      | error e =>
        rw [conclude, houtput, writeListing_of_error (hdirectory ▸ hcreate)] at h
        cases h
      | ok place =>
        obtain ⟨hsummary, hfile⟩ := conclude_of_isRegular houtput (hdirectory ▸ hcreate)
          (hdirectory ▸ hregular path place houtput hcreate) h
        simp only [finished, hfile, hdirectory]
        refine ⟨hsummary, congrArg Sink.stored hout, by simp, ?_⟩
        rintro _ ⟨⟩
        exact ⟨place, hcreate, directory.changesAt_put place _,
          (Directory.creates_of_create hcreate).holds _⟩

/-- A job that succeeded has its listing in the file that was named, and tells of the program
that was read. -/
theorem holds_of_success {summary : Summary} (hread : directory.read job.rom = .ok bytes)
    (hpath : job.output = some path) (hcreate : directory.create path = .ok place)
    (hregular : directory.IsRegular place) (h : (job.run directory sink).result = .ok summary) :
    ∃ d, disassemble job.config bytes = .ok d ∧ summary = .of d ∧
      (job.run directory sink).directory.Holds path place (Utf8.encode d.listing.text) := by
  have honly : ∀ path' place', job.output = some path' → directory.create path' = .ok place' →
      directory.IsRegular place' := by
    intro path' place' hpath' hcreate'
    rw [hpath, Option.some_inj] at hpath'
    subst hpath'
    rw [hcreate, Except.ok.injEq] at hcreate'
    exact hcreate' ▸ hregular
  obtain ⟨bytes', d, hread', hd, hsummary, -, -, hfile⟩ := run_of_success h honly
  obtain ⟨place', hcreate', -, hholds⟩ := hfile path hpath
  rw [hread, Except.ok.injEq] at hread'
  rw [hcreate, Except.ok.injEq] at hcreate'
  subst hread' hcreate'
  exact ⟨d, hd, hsummary, hholds⟩

theorem ends_of_uncreated {e : IoError} (hpath : job.output = some path)
    (hread : directory.read job.rom = .ok bytes) (hd : disassemble job.config bytes = .ok d)
    (hreport : (job.reporting sink d).2 = .ok ()) (h : directory.create path = .error e) :
    Ends (job.run directory sink) (.error (.writeListing path e)) directory
      (job.reporting sink d).1 := by
  obtain ⟨w, hcaller, htells, hrun⟩ := run_of_reported hread hd hreport
  have hcreate : w.directory.create path = .error e := htells.directory ▸ h
  rw [hrun, conclude, hpath, writeListing_of_error hcreate]
  exact ⟨rfl, htells.directory, hcaller⟩

theorem ends_of_written (hpath : job.output = some path)
    (hread : directory.read job.rom = .ok bytes) (hd : disassemble job.config bytes = .ok d)
    (hreport : (job.reporting sink d).2 = .ok ()) (hcreate : directory.create path = .ok place)
    (htakes : directory.TakesAll place) :
    ∃ directory', Ends (job.run directory sink)
        (.ok { words := bytes.size / 2, reachable := d.reachability.count }) directory'
        (job.reporting sink d).1 ∧
      directory.ChangesAt directory' place ∧
      (directory.IsRegular place → directory'.Holds path place (Utf8.encode d.listing.text)) := by
  obtain ⟨w, hcaller, htells, hrun⟩ := run_of_reported hread hd hreport
  have hout : w.stdout.NeverFails := htells.stdout ▸ Sink.neverFails_unlimited
  have hsize : d.image.size = bytes.size / 2 := by
    rw [(eq_of_disassemble hd).2]
    exact Image.size_ofBytes bytes
  have hdirectory : w.directory = directory := htells.directory
  obtain ⟨w', hwrite, hchanges, hfile⟩ := writeListing_of_takesAll
    (hdirectory ▸ hcreate) (hdirectory ▸ htakes) hout htells.stderr d.listing
  have hcaller' := caller_writeListing d.listing (some path) w
  rw [hwrite] at hcaller'
  rw [hdirectory] at hchanges hfile
  rw [hrun, conclude, hpath, hwrite, ← hsize]
  exact ⟨w'.directory, ⟨rfl, rfl, hcaller'.trans hcaller⟩, hchanges, hfile⟩

/-- A job with a file for its listing ends at the first thing that fails, and by then it has
touched nothing that comes later:
an unreadable program and a refused configuration leave the sink and the files alone;
a report that cannot be delivered leaves the files alone;
a listing whose file cannot be created leaves the files alone, behind a complete report;
and otherwise, where no write to the file fails, it holds the listing, also if it was the
program's own, and all other files are what they were. Devices that store nothing take the
listing too, if they never fail. -/
theorem run_ends_at_first_failure (job : Job) (path : Path) (directory : Directory) (sink : Sink)
    (hpath : job.output = some path) :
    (∀ e, directory.read job.rom = .error e →
      Ends (job.run directory sink) (.error (.readRom job.rom e)) directory sink) ∧
    ∀ bytes, directory.read job.rom = .ok bytes →
      (∀ e, job.config.validate = .error e →
        Ends (job.run directory sink) (.error (.config e)) directory sink) ∧
      (job.config.validate = .ok () → ∃ d, disassemble job.config bytes = .ok d ∧
        (∀ e, (job.reporting sink d).2 = .error e →
          Ends (job.run directory sink) (.error (.writeReport e)) directory
            (job.reporting sink d).1) ∧
        ((job.reporting sink d).2 = .ok () →
          ((job.reporting sink d).1.stored =
            sink.stored ++ if job.report then Utf8.encode (Report.text d.events) else #[]) ∧
          (∀ e, directory.create path = .error e →
            Ends (job.run directory sink) (.error (.writeListing path e)) directory
              (job.reporting sink d).1) ∧
          ∀ place, directory.create path = .ok place →
            directory.TakesAll place →
            ∃ directory', Ends (job.run directory sink)
                (.ok { words := bytes.size / 2, reachable := d.reachability.count }) directory'
                (job.reporting sink d).1 ∧
              directory.ChangesAt directory' place ∧
              (directory.IsRegular place →
                directory'.Holds path place (Utf8.encode d.listing.text)))) := by
  refine ⟨fun e => ends_of_unreadable, ?_⟩
  intro bytes hread
  refine ⟨fun e => ends_of_invalid hread, ?_⟩
  intro hvalid
  have hd := disassemble_of_ok hvalid bytes
  refine ⟨_, hd, fun e => ends_of_unreported hread hd, ?_⟩
  intro hreport
  -- the sink is done with, and only now is the file looked for
  exact ⟨stored_reporting hreport, fun e => ends_of_uncreated hpath hread hd hreport,
    fun place => ends_of_written hpath hread hd hreport⟩

/-- A jump to itself in a file, which is the only one. -/
def onlyJump : Directory := ({} : Directory).addFile #[0x72] #[0x12, 0x00]

/-- The listing of this program, to the program's own file. -/
def own : Job := { rom := #[0x72], output := some #[0x72] }

/-- A sink for 100 bytes has room for the report of this job, and its file is overwritten. A
sink for 30 bytes has not, and then the program is still in its file. -/
theorem run_ends_with_own_file_overwritten :
    (own.run onlyJump { limit := some 100 }).result = .ok { words := 1, reachable := 1 } ∧
    (own.run onlyJump { limit := some 100 }).sink.stored = Utf8.encode
      ("Analysing reachability...\nANALYSIS DONE! 1 of 1 words reachable. Result:\n" ++
        "200: 1200 reachable\n") ∧
    (own.run onlyJump { limit := some 100 }).directory.read #[0x72] =
      .ok (Utf8.encode "200: jmp 200\n") ∧
    (own.run onlyJump { limit := some 30 }).result = .error (.writeReport .nothingWritten) ∧
    (own.run onlyJump { limit := some 30 }).directory.read #[0x72] = .ok #[0x12, 0x00] := by
  have hread : onlyJump.read #[0x72] = .ok #[0x12, 0x00] := by decide +kernel
  have hentry : onlyJump.at? { names := [[0x72]] } = some (.file #[0x12, 0x00]) := by rfl
  have hregular : onlyJump.IsRegular { names := [[0x72]] } := by
    intro device
    rw [hentry]
    simp
  have htakes : onlyJump.TakesAll { names := [[0x72]] } :=
    hregular.takesAll Sink.neverFails_unlimited
  have hend (sink : Sink) := run_ends_at_first_failure own #[0x72] onlyJump sink rfl
  obtain ⟨-, hrun⟩ := hend { limit := some 100 }
  obtain ⟨-, hvalid⟩ := hrun _ hread
  obtain ⟨d, hd, -, hreported⟩ := hvalid rfl
  obtain ⟨-, hrun'⟩ := hend { limit := some 30 }
  obtain ⟨-, hvalid'⟩ := hrun' _ hread
  obtain ⟨d', hd', hunreported, -⟩ := hvalid' rfl
  obtain ⟨-, rfl⟩ := eq_of_disassemble hd
  obtain ⟨-, rfl⟩ := eq_of_disassemble hd'
  obtain ⟨hstored, -, hcreated⟩ := hreported (by decide +kernel)
  obtain ⟨directory', hends, hchanges, hfile⟩ :=
    hcreated { names := [[0x72]] } (by decide +kernel) htakes
  have hends' := hunreported .nothingWritten (by decide +kernel)
  refine ⟨?_, ?_, ?_, hends'.result, ?_⟩
  · rw [hends.result]
    decide +kernel
  · rw [hends.sink, hstored]
    decide +kernel
  · have hreadable : directory'.refusal? .read { names := [[0x72]] } = none := by
      rw [hchanges.refusal?]
      rfl
    rw [hends.directory, (hfile hregular).read hreadable]
    decide +kernel
  · rw [hends'.directory, hread]

end Chip8.Job
