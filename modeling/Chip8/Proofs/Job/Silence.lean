import Chip8.Proofs.Job

/-!
# Jobs whose report goes elsewhere

Whether a job prints its report makes no difference to how it ends, as long as the report can
be delivered, and neither does it whether the report goes to a sink of its own or to standard
error, where a logger prints too.
-/

namespace Chip8.Job

open World (surroundings toCaller)

variable {job : Job} {directory : Directory} {sink : Sink} {w : World}

/-- The job without its report. -/
def silent (job : Job) : Job := { job with report := false }

/-- Two jobs that came to the same end, whatever they told on the way and to whom. -/
structure SameEnd (f g : Finished) : Prop where
  result : f.result = g.result
  directory : f.directory = g.directory
  stdout : f.stdout = g.stdout
  stderr : f.stderr = g.stderr

theorem SameEnd.symm {f g : Finished} (h : SameEnd f g) : SameEnd g f :=
  ⟨h.result.symm, h.directory.symm, h.stdout.symm, h.stderr.symm⟩

theorem SameEnd.trans {f g k : Finished} (h : SameEnd f g) (h' : SameEnd g k) : SameEnd f k :=
  ⟨h.result.trans h'.result, h.directory.trans h'.directory, h.stdout.trans h'.stdout,
    h.stderr.trans h'.stderr⟩

theorem snd_reporting_of_neverFails (job : Job) (h : sink.NeverFails) (d : Disassembly) :
    (job.reporting sink d).2 = .ok () := by
  rw [reporting]
  split_ifs
  · exact h.snd_deliver _
  · rfl

/-- A job whose report can be delivered comes to the same end as without it, with any sink
at all. -/
theorem run_sameEnd_silent (h : sink.NeverFails) (sink' : Sink) :
    SameEnd (job.run directory sink) (job.silent.run directory sink') := by
  -- the silent job reads the same program with the same configuration
  cases hread : directory.read job.rom with
  | error e =>
    have hread' : directory.read job.silent.rom = .error e := hread
    rw [run_of_unreadable hread, run_of_unreadable hread']
    exact ⟨rfl, rfl, rfl, rfl⟩
  | ok bytes =>
    have hread' : directory.read job.silent.rom = .ok bytes := hread
    cases hvalid : job.config.validate with
    | error e =>
      have hvalid' : job.silent.config.validate = .error e := hvalid
      rw [run_of_invalid hread hvalid, run_of_invalid hread' hvalid']
      exact ⟨rfl, rfl, rfl, rfl⟩
    | ok u =>
      have hd := disassemble_of_ok hvalid bytes
      have hd' : disassemble job.silent.config bytes = _ := hd
      have hunreported : (job.silent.reporting sink' (.ofImage job.config (.ofBytes bytes))).2 =
        .ok () := rfl
      obtain ⟨v, -, hv, hloud⟩ := run_of_reported hread hd (snd_reporting_of_neverFails job h _)
      obtain ⟨w, -, hw, hquiet⟩ := run_of_reported hread' hd' hunreported
      -- only the listing is left to be written, to the same place
      obtain ⟨hresult, hsame⟩ := conclude_alike (hv.directory.trans hw.directory.symm)
        (hv.stdout.trans hw.stdout.symm) hv.stderr hw.stderr job
        (.ofImage job.config (.ofBytes bytes))
      obtain ⟨-, -, taken, hstderr, hstderr'⟩ := hsame.stderr
      rw [hv.stored] at hstderr
      rw [hw.stored] at hstderr'
      rw [hloud, hquiet]
      exact ⟨hresult, hsame.directory, congrArg Sink.stored hsame.stdout,
        hstderr.trans hstderr'.symm⟩

/-- A job without a report leaves its sink alone. -/
theorem sink_run_silent (job : Job) (directory : Directory) (sink : Sink) :
    (job.silent.run directory sink).sink = sink := by
  cases hread : directory.read job.silent.rom with
  | error e => exact (ends_of_unreadable hread).sink
  | ok bytes =>
    cases hvalid : job.silent.config.validate with
    | error e => exact (ends_of_invalid hread hvalid).sink
    | ok u =>
      have hunreported : (job.silent.reporting sink (.ofImage job.config (.ofBytes bytes))).2 =
        .ok () := rfl
      obtain ⟨w, hcaller, -, hrun⟩ := run_of_reported hread (disassemble_of_ok hvalid bytes)
        hunreported
      rw [hrun]
      exact (caller_writeListing _ _ w).trans hcaller

/-- In whatever world a job prints its report on standard error, it ends as one that hands its
report to a caller. -/
theorem perform_errors_agrees (job : Job) (herrors : w.stderr.NeverFails)
    (hout : w.stdout = Sink.unlimited) :
    (job.perform surroundings (World.stream .errors) w).1 =
        (job.run w.directory Sink.unlimited).result ∧
      (job.perform surroundings (World.stream .errors) w).2.directory =
        (job.run w.directory Sink.unlimited).directory ∧
      (job.perform surroundings (World.stream .errors) w).2.stdout.stored =
        (job.run w.directory Sink.unlimited).stdout ∧
      (job.perform surroundings (World.stream .errors) w).2.stderr.NeverFails := by
  cases hread : w.directory.read job.rom with
  | error e =>
    rw [perform_of_unreadable hread, run_of_unreadable hread]
    exact ⟨rfl, rfl, congrArg Sink.stored hout, herrors⟩
  | ok bytes =>
    cases hvalid : job.config.validate with
    | error e =>
      have hlog := World.tells_log herrors (readRecord bytes.size job.rom)
      rw [perform_of_invalid hread hvalid, run_of_invalid hread hvalid]
      exact ⟨rfl, hlog.directory, congrArg Sink.stored (hlog.stdout.trans hout), hlog.stderr⟩
    | ok u =>
      have hd := disassemble_of_ok hvalid bytes
      obtain ⟨v, hv, hloud⟩ := perform_errors herrors hread hd
      have hreport := snd_reporting_of_neverFails job Sink.neverFails_unlimited
        (.ofImage job.config (.ofBytes bytes))
      obtain ⟨v', -, hv', hrun⟩ := run_of_reported hread hd hreport
      obtain ⟨hresult, hsame⟩ := conclude_alike (hv.directory.trans hv'.directory.symm)
        (hv.stdout.trans (hout.trans hv'.stdout.symm)) hv.stderr hv'.stderr job
        (.ofImage job.config (.ofBytes bytes))
      rw [hloud, hrun]
      exact ⟨hresult, hsame.directory, congrArg Sink.stored hsame.stdout, hsame.stderr.1⟩

end Chip8.Job
