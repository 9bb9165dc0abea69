import Chip8.Proofs.Job.Telling

/-!
# The stages of a job

A job reads its program, prepares the disassembly and writes the listing. To a file that
never fails it writes the whole text; where the listing goes and what has been said before
are no matter of each other.
-/

namespace Chip8.Job

open World (surroundings toCaller Tells)

variable {job : Job} {bytes : Bytes} {d : Disassembly} {w : World}

/-! ## Writing the listing -/

section

variable {l : Listing} {path : Path} {place : Place}

theorem writeListing_output (l : Listing) (w : World) :
    writeListing surroundings l none w =
      ((w.stdout.run l.writeTo).2.mapError (.writeListing dash),
        { w with stdout := (w.stdout.run l.writeTo).1 }) := by
  have hwrite : l.writeTo (surroundings.stream .output) w = _ := World.writeTo_output l w
  rw [writeListing, StateM.bind_apply, hwrite]
  rfl

theorem writeListing_of_error {e : IoError} (h : w.directory.create path = .error e) (l : Listing) :
    writeListing surroundings l (some path) w = (.error (.writeListing path e), w) := by
  have hcreate : surroundings.createFile path w = (.error e, w) := by
    simp only [surroundings, World.createFile, h]
  rw [writeListing, StateM.bind_apply, hcreate]
  rfl

/-- What is written at a place that could be created. -/
theorem writeListing_of_ok (h : w.directory.create path = .ok place) (l : Listing) :
    writeListing surroundings l (some path) w =
      ((l.writeTo (World.opened w.directory place)
          { w with directory := w.directory.emptied place }).1.mapError (.writeListing path),
        (l.writeTo (World.opened w.directory place)
          { w with directory := w.directory.emptied place }).2) := by
  have hcreate : surroundings.createFile path w = (.ok (World.opened w.directory place),
      { w with directory := w.directory.emptied place }) := by
    simp only [surroundings, World.createFile, h]
  rw [writeListing, StateM.bind_apply, hcreate]
  rfl

theorem caller_writeListing (l : Listing) (output : Option Path) (w : World) :
    (writeListing surroundings l output w).2.caller = w.caller := by
  cases output with
  | none => rw [writeListing_output]
  | some path =>
    cases hcreate : w.directory.create path with
    | error e => rw [writeListing_of_error hcreate]
    | ok place =>
      rw [writeListing_of_ok hcreate]
      exact World.caller_writeTo_opened _ _ _ _

/-- A file takes the listing as a new sink does, and holds what that has stored. -/
theorem writeListing_of_isRegular (h : w.directory.create path = .ok place)
    (hregular : w.directory.IsRegular place) (l : Listing) :
    writeListing surroundings l (some path) w =
      (((w.newFile place).run l.writeTo).2.mapError (.writeListing path),
        { w with directory :=
            w.directory.put place (.file ((w.newFile place).run l.writeTo).1.stored) }) := by
  rw [writeListing_of_ok h, hregular.emptied, World.opened_of_isRegular hregular,
    World.writeTo_toFile l w (Directory.creates_of_create h).names]

/-- A device takes the listing and no file changes. -/
theorem writeTo_of_device {device : Device} (hdevice : w.directory.at? place = some (.device device))
    (htakes : w.directory.TakesAll place) (hout : w.stdout.NeverFails) (herr : w.stderr.NeverFails)
    (l : Listing) :
    ∃ w', l.writeTo (World.opened w.directory place) w = (.ok (), w') ∧
      w'.directory = w.directory := by
  rw [World.opened_of_device hdevice]
  cases houtlet : device.outlet with
  | stream s =>
    obtain ⟨hok, hdirectory⟩ := World.writeTo_stream hout herr s l
    exact ⟨_, Prod.ext hok rfl, hdirectory⟩
  | sink s =>
    have hsink : w.directory.outlet place = .sink s := by
      simp only [Directory.outlet, hdevice, houtlet]
    exact ⟨w, World.writeTo_device (htakes s hsink) l w, rfl⟩

/-- Where no write fails, the listing is written: a file holds it, and all other files are what
they were. -/
theorem writeListing_of_takesAll (h : w.directory.create path = .ok place)
    (htakes : w.directory.TakesAll place) (hout : w.stdout.NeverFails) (herr : w.stderr.NeverFails)
    (l : Listing) :
    ∃ w', writeListing surroundings l (some path) w = (.ok (), w') ∧
      w.directory.ChangesAt w'.directory place ∧
      (w.directory.IsRegular place → w'.directory.Holds path place (Utf8.encode l.text)) := by
  by_cases hregular : w.directory.IsRegular place
  · obtain ⟨hlimit, hflush⟩ := htakes _ hregular.outlet
    have hok := l.snd_writeTo_of_neverFails (s := w.newFile place) ⟨hlimit, hflush⟩
    have hstored := Listing.stored_writeTo_of_ok hok
    rw [writeListing_of_isRegular h hregular, hok, hstored]
    refine ⟨_, rfl, w.directory.changesAt_put place _, fun _ => ?_⟩
    rw [World.newFile, Array.empty_append]
    exact (Directory.creates_of_create h).holds _
  · obtain ⟨device, hdevice⟩ := not_forall_not.mp hregular
    have hempty : w.directory.emptied place = w.directory := by rw [Directory.emptied, hdevice]
    obtain ⟨w', hwrite, hdirectory⟩ := writeTo_of_device hdevice htakes hout herr l
    rw [writeListing_of_ok h, hempty, hwrite]
    refine ⟨w', rfl, hdirectory ▸ .refl _ _, ?_⟩
    exact fun hnone => absurd hdevice (hnone device)

/-- With its file created, a listing can only fail to be written to it. -/
theorem exists_of_writeListing_eq_error {failure : Failure}
    (hcreate : w.directory.create path = .ok place)
    (h : (writeListing surroundings l (some path) w).1 = .error failure) :
    ∃ e, (l.writeTo (World.opened w.directory place)
        { w with directory := w.directory.emptied place }).1 = .error e ∧
      failure = .writeListing path e := by
  rw [writeListing_of_ok hcreate] at h
  cases hwrite : (l.writeTo (World.opened w.directory place)
      { w with directory := w.directory.emptied place }).1 with
  | ok u =>
    rw [hwrite] at h
    cases h
  | error e =>
    rw [hwrite] at h
    cases h
    exact ⟨e, rfl, rfl⟩

/-- A listing that could not be written is not on standard output, and if no write can fail
then no file has changed. -/
theorem writeListing_of_failed {output : Option Path} {failure : Failure}
    (hout : w.stdout.NeverFails) (herr : w.stderr.NeverFails)
    (h : (writeListing surroundings l output w).1 = .error failure) :
    failure.exitCode = 1 ∧ (writeListing surroundings l output w).2.stdout = w.stdout ∧
      ((∀ path place, output = some path → w.directory.create path = .ok place →
          w.directory.TakesAll place) →
        (writeListing surroundings l output w).2.directory = w.directory) := by
  cases output with
  | none =>
    rw [writeListing_output, l.snd_writeTo_of_neverFails hout] at h
    cases h
  | some path =>
    cases hcreate : w.directory.create path with
    | error e =>
      rw [writeListing_of_error hcreate] at h ⊢
      cases h
      exact ⟨rfl, rfl, fun _ => rfl⟩
    | ok place =>
      obtain ⟨e, hwrite, rfl⟩ := exists_of_writeListing_eq_error hcreate h
      refine ⟨rfl, ?_, ?_⟩
      · rw [writeListing_of_ok hcreate]
        exact World.stdout_writeTo_opened hout herr hwrite
      · intro htakes
        obtain ⟨w', hwritten, -⟩ :=
          writeListing_of_takesAll hcreate (htakes path place rfl hcreate) hout herr l
        rw [hwritten] at h
        cases h

/-- What was said before makes no difference to how a listing is written. -/
theorem alike_writeListing {E : Sink → Sink → Prop} (hE : Writer.Alike E Sink.itself Sink.itself)
    (l : Listing) (output : Option Path) :
    Alike (World.SameBut E) (writeListing surroundings l output)
      (writeListing surroundings l output) := by
  cases output with
  | none => exact .bind (l.alike_writeTo (World.alike_stream hE .output)) fun _ => .pure _
  | some path =>
    intro v w h
    cases hcreate : v.directory.create path with
    | error e =>
      rw [writeListing_of_error hcreate, writeListing_of_error (h.directory ▸ hcreate)]
      exact ⟨rfl, h⟩
    | ok place =>
      rw [writeListing_of_ok hcreate, writeListing_of_ok (h.directory ▸ hcreate), ← h.directory]
      obtain ⟨hanswer, hstates⟩ := l.alike_writeTo (World.alike_opened hE v.directory place)
        { v with directory := v.directory.emptied place }
        { w with directory := v.directory.emptied place } ⟨rfl, h.stdout, h.stderr⟩
      exact ⟨congrArg (·.mapError (Failure.writeListing path)) hanswer, hstates⟩

end

/-! ## All stages -/

section

variable {out : Writer (StateM World)}

theorem perform_of_unreadable {e : IoError} (h : w.directory.read job.rom = .error e) :
    job.perform surroundings out w = (.error (.readRom job.rom e), w) := by
  have hread : surroundings.readFile job.rom w = (.error e, w) := congrArg (·, w) h
  rw [perform, StateM.bind_apply, hread]
  rfl

theorem perform_of_readable (h : w.directory.read job.rom = .ok bytes) :
    job.perform surroundings out w =
      match job.prepare surroundings out bytes (w.log (readRecord bytes.size job.rom)) with
      | (.error failure, w') => (.error failure, w')
      | (.ok d, w') =>
        ((writeListing surroundings d.listing job.output w').1.map fun () => .of d,
          (writeListing surroundings d.listing job.output w').2) := by
  have hread : surroundings.readFile job.rom w = (.ok bytes, w) := congrArg (·, w) h
  have hlog : surroundings.log (readRecord bytes.size job.rom) w =
    ((), w.log (readRecord bytes.size job.rom)) := rfl
  rw [perform, StateM.bind_apply, hread]
  simp only [StateM.bind_apply]
  rw [hlog]
  cases job.prepare surroundings out bytes (w.log (readRecord bytes.size job.rom)) with
  | mk outcome w' =>
    cases outcome with
    | ok d => rfl
    | error failure => rfl

theorem perform_of_invalid {e : ConfigError} (hread : w.directory.read job.rom = .ok bytes)
    (h : job.config.validate = .error e) :
    job.perform surroundings out w =
      (.error (.config e), w.log (readRecord bytes.size job.rom)) := by
  rw [perform_of_readable hread, prepare_of_error h]

/-- All that is told of a job whose program could be read and disassembled. -/
def toldOf (job : Job) (bytes : Bytes) (d : Disassembly) : List Signal :=
  .record (readRecord bytes.size job.rom) :: d.signals

/-- The rest of a job whose report is out. -/
def conclude (job : Job) (d : Disassembly) (w : World) : Except Failure Summary × World :=
  ((writeListing surroundings d.listing job.output w).1.map fun () => .of d,
    (writeListing surroundings d.listing job.output w).2)

/-- How a job goes on does not depend on what was said before. -/
theorem conclude_alike {v : World} (hdirectory : v.directory = w.directory)
    (hstdout : v.stdout = w.stdout) (hv : v.stderr.NeverFails) (hw : w.stderr.NeverFails)
    (job : Job) (d : Disassembly) :
    (job.conclude d v).1 = (job.conclude d w).1 ∧
      World.SameBut (World.TookAlike v.stderr.stored w.stderr.stored) (job.conclude d v).2
        (job.conclude d w).2 := by
  have halike := World.alike_itself v.stderr.stored w.stderr.stored
  obtain ⟨hanswer, hstates⟩ := alike_writeListing halike d.listing job.output v w
    ⟨hdirectory, hstdout, hv, hw, #[], Array.append_empty.symm, Array.append_empty.symm⟩
  exact ⟨congrArg (·.map fun () => Summary.of d) hanswer, hstates⟩

/-- Standard output holds the listing if no file is named for it. -/
theorem conclude_of_no_output (houtput : job.output = none) (hout : w.stdout = Sink.unlimited)
    (d : Disassembly) :
    ∃ w', job.conclude d w = (.ok (.of d), w') ∧ w'.directory = w.directory ∧
      w'.stdout.stored = Utf8.encode d.listing.text := by
  have hok := d.listing.snd_writeTo_of_neverFails (hout ▸ Sink.neverFails_unlimited)
  have hstored := Listing.stored_writeTo_of_ok hok
  rw [conclude, houtput, writeListing_output, hok]
  refine ⟨_, rfl, rfl, hstored.trans ?_⟩
  rw [hout]
  exact Array.empty_append

/-- A file that was named for the listing holds it if the job succeeded. -/
theorem conclude_of_isRegular {path : Path} {place : Place} {summary : Summary}
    (houtput : job.output = some path) (hcreate : w.directory.create path = .ok place)
    (hregular : w.directory.IsRegular place) (h : (job.conclude d w).1 = .ok summary) :
    summary = .of d ∧ (job.conclude d w).2 =
      { w with directory := w.directory.put place (.file (Utf8.encode d.listing.text)) } := by
  rw [conclude, houtput, writeListing_of_isRegular hcreate hregular] at h ⊢
  cases hwrite : ((w.newFile place).run d.listing.writeTo).2 with
  | error e =>
    rw [hwrite] at h
    cases h
  | ok u =>
    have hstored := Listing.stored_writeTo_of_ok hwrite
    rw [show (w.newFile place).stored = #[] from rfl, Array.empty_append] at hstored
    rw [hwrite] at h
    cases h
    exact ⟨rfl, by rw [hstored]⟩

/-- Where the listing goes to standard output or to a file, it is not said. -/
theorem conclude_keeps (job : Job) (d : Disassembly)
    (hregular : ∀ path place, job.output = some path → w.directory.create path = .ok place →
      w.directory.IsRegular place) :
    (job.conclude d w).2.stderr = w.stderr ∧ (job.conclude d w).2.logger = w.logger := by
  rw [conclude]
  cases houtput : job.output with
  | none =>
    rw [writeListing_output]
    exact ⟨rfl, rfl⟩
  | some path =>
    cases hcreate : w.directory.create path with
    | error e =>
      rw [writeListing_of_error hcreate]
      exact ⟨rfl, rfl⟩
    | ok place =>
      rw [writeListing_of_isRegular hcreate (hregular path place houtput hcreate)]
      exact ⟨rfl, rfl⟩

theorem perform_toCaller (h : w.stderr.NeverFails) (hread : w.directory.read job.rom = .ok bytes)
    (hd : disassemble job.config bytes = .ok d) :
    ∃ w', w'.caller = (job.reporting w.caller d).1 ∧
      Tells w w' (Signal.records (job.toldOf bytes d)) (allSaid w false (job.toldOf bytes d)) ∧
      job.perform surroundings toCaller w =
        match (job.reporting w.caller d).2 with
        | .error e => (.error (.writeReport e), w')
        | .ok () => job.conclude d w' := by
  have hlog := World.tells_log h (readRecord bytes.size job.rom)
  obtain ⟨w', hprepare, hcaller, htells⟩ := prepare_toCaller hlog.stderr hd
  rw [World.caller_log] at hprepare hcaller
  refine ⟨w', hcaller, tells_cons (s := .record (readRecord bytes.size job.rom)) hlog htells, ?_⟩
  rw [perform_of_readable hread, hprepare]
  cases (job.reporting w.caller d).2 with
  | ok u => rfl
  | error e => rfl

/-- With the report on standard error the job has nothing to fail at before its listing. -/
theorem perform_errors (h : w.stderr.NeverFails) (hread : w.directory.read job.rom = .ok bytes)
    (hd : disassemble job.config bytes = .ok d) :
    ∃ w', Tells w w' (Signal.records (job.toldOf bytes d))
        (allSaid w job.report (job.toldOf bytes d)) ∧
      job.perform surroundings (World.stream .errors) w = job.conclude d w' := by
  have hlog := World.tells_log h (readRecord bytes.size job.rom)
  obtain ⟨w', hprepare, htells⟩ := prepare_errors hlog.stderr hd
  refine ⟨w', tells_cons (s := .record (readRecord bytes.size job.rom)) hlog htells, ?_⟩
  rw [perform_of_readable hread, hprepare]
  rfl

end

end Chip8.Job
