import Chip8.Command.Run
import Chip8.Proofs.Job.Silence

/-!
# A run and its job

A run of the command that is asked for a job sets up the logger, does the job with its report
on standard error, and closes with a record or with the failure. So it ends as the job does
by itself, and all that the command adds is said on standard error.
-/

namespace Chip8.Command

open World (surroundings Tells)

variable {args : List Bytes} {job : Job} {verbose : Bool} {w : World}

def usageScreen : String := usageText ++ "\n"

def failureText (f : Failure) : String := String.join ((failureLines f).map (· ++ "\n"))

theorem failureText_usage (message : String) :
    failureText (.usage message) = "error: " ++ message ++ "\n" ++ usageScreen := by
  have hlines : failureLines (.usage message) = ["error: " ++ message, usageText] := rfl
  rw [failureText, hlines, usageScreen, List.map_cons, List.map_singleton, String.join_cons,
    String.join_cons, String.join_nil, String.append_empty]

theorem failureText_of_exitCode {failure : Failure} (h : failure.exitCode = 1) :
    failureText failure = "error: " ++ failure.message ++ "\n" := by
  have hlines : failureLines failure = ["error: " ++ failure.message] := by
    cases failure with
    | usage message => cases h
    | _ => rfl
  rw [failureText, hlines, List.map_singleton, String.join_cons, String.join_nil, String.append_empty]

def exitCodeOf : Except Failure Job.Summary → Nat
  | .ok _ => 0
  | .error failure => failure.exitCode

/-- What is said when the job is done. -/
def closing (w : World) : Except Failure Job.Summary → String
  | .ok summary => w.printed summary.record
  | .error failure => failureText failure

theorem tells_printLines (h : w.stderr.NeverFails) (lines : List String) :
    ∃ w', lines.forM (surroundings.printLine .errors) w = ((), w') ∧
      Tells w w' [] (String.join (lines.map (· ++ "\n"))) := by
  induction lines generalizing w with
  | nil => exact ⟨w, rfl, .refl h⟩
  | cons line lines ih =>
    have hline := World.tells_printLine h line
    obtain ⟨w', hrest, htells⟩ := ih hline.stderr
    refine ⟨w', hrest, ?_⟩
    rw [List.map_cons, String.join_cons]
    exact hline.trans htells

theorem tells_fail (h : w.stderr.NeverFails) (failure : Failure) :
    ∃ w', fail surroundings failure w = (failure.exitCode, w') ∧
      Tells w w' [] (failureText failure) := by
  obtain ⟨w', hlines, htells⟩ := tells_printLines h (failureLines failure)
  refine ⟨w', ?_, htells⟩
  rw [fail, StateM.bind_apply, hlines]
  rfl

theorem perform_of_error {e : UsageError} (h : read args = .error e) (w : World) :
    perform surroundings args w = fail surroundings (.usage e.message) w := by
  rw [perform, h]

theorem perform_of_help (h : read args = .ok .help) (w : World) :
    perform surroundings args w = (0, w.printLine .output usageText) := by
  rw [perform, h]
  rfl

/-- The logger of a run, as it is asked for or else by default. -/
def loggerOf (w : World) (verbose : Bool) : Log.Logger :=
  w.backend (w.filter.getD (fallbackFilter verbose))

/-- The logger has been set up. -/
def started (w : World) (verbose : Bool) : World := w.startLog (fallbackFilter verbose)

theorem tells_started (h : w.stderr.NeverFails) (verbose : Bool) :
    Tells { w with logger := some (loggerOf w verbose) } (started w verbose) []
      (loggerOf w verbose).greeting :=
  World.tells_sayError (w := { w with logger := some (loggerOf w verbose) }) h _

/-- The command does its job, and closes on standard error. -/
theorem perform_of_job (h : read args = .ok (.run job verbose)) {w' : World}
    {result : Except Failure Job.Summary}
    (hjob : job.perform surroundings (World.stream .errors) (started w verbose) = (result, w'))
    (hstderr : w'.stderr.NeverFails) :
    ∃ w'' records, perform surroundings args w = (exitCodeOf result, w'') ∧
      Tells w' w'' records (closing w' result) := by
  have hstarted : job.perform surroundings (surroundings.stream .errors)
      (surroundings.startLog (fallbackFilter verbose) w).2 = (result, w') := hjob
  rw [perform, h]
  simp only [StateM.bind_apply]
  rw [hstarted]
  cases result with
  | ok summary => exact ⟨_, _, rfl, World.tells_log hstderr summary.record⟩
  | error failure =>
    obtain ⟨w'', hfail, htells⟩ := tells_fail hstderr failure
    exact ⟨w'', [], hfail, htells⟩

/-! ## What is seen of a run -/

section

variable {backend : Log.Backend} {filter : Option String} {directory : Directory}

/-- What is seen of a run that has come to this. -/
def outcome (r : Nat × World) : Outcome where
  exitCode := r.1
  stdout := r.2.stdout.stored
  stderr := r.2.stderr.stored
  directory := r.2.directory

theorem run_eq (backend : Log.Backend) (args : List Bytes) (filter : Option String)
    (directory : Directory) :
    run backend args filter directory =
      outcome (perform surroundings args { directory, filter, backend }) := rfl

theorem run_of_error {e : UsageError} (h : read args = .error e) :
    run backend args filter directory =
      { exitCode := 2, stdout := #[]
        stderr := Utf8.encode ("error: " ++ e.message ++ "\n" ++ usageScreen), directory } := by
  obtain ⟨w, hfail, htells⟩ := tells_fail (w := { directory, filter, backend })
    Sink.neverFails_unlimited (.usage e.message)
  rw [run_eq, perform_of_error h, hfail]
  simp only [outcome, htells.directory, htells.stdout, htells.stored, failureText_usage]
  exact congrArg (Outcome.mk 2 #[] · directory) Array.empty_append

theorem run_of_help (h : read args = .ok .help) :
    run backend args filter directory =
      { exitCode := 0, stdout := Utf8.encode usageScreen, stderr := #[], directory } := by
  have hprint := World.printLine_output (w := { directory, filter, backend })
    Sink.neverFails_unlimited usageText
  rw [← usageScreen] at hprint
  rw [run_eq, perform_of_help h, hprint]
  exact congrArg (Outcome.mk 0 · #[] directory) Array.empty_append

variable (backend filter directory) in
/-- A run ends as its job does by itself, and closes on standard error. -/
theorem run_of_job (h : read args = .ok (.run job verbose)) :
    (run backend args filter directory).exitCode =
        exitCodeOf (job.run directory Sink.unlimited).result ∧
      (run backend args filter directory).stdout = (job.run directory Sink.unlimited).stdout ∧
      (run backend args filter directory).directory =
        (job.run directory Sink.unlimited).directory ∧
      (run backend args filter directory).stderr =
        (job.perform surroundings (World.stream .errors)
          (started { directory, filter, backend } verbose)).2.stderr.stored ++
        Utf8.encode (closing (job.perform surroundings (World.stream .errors)
            (started { directory, filter, backend } verbose)).2
          (job.run directory Sink.unlimited).result) := by
  have hstarted := tells_started (w := { directory, filter, backend }) Sink.neverFails_unlimited
    verbose
  have hsame : (started { directory, filter, backend } verbose).directory = directory :=
    hstarted.directory
  obtain ⟨hresult, hdirectory, hstdout, hstderr⟩ :=
    Job.perform_errors_agrees job hstarted.stderr hstarted.stdout
  rw [hsame] at hresult hdirectory hstdout
  generalize hend : job.perform surroundings (World.stream .errors)
    (started { directory, filter, backend } verbose) = ended at *
  obtain ⟨result, w⟩ := ended
  obtain ⟨w', records, hperform, htells⟩ := perform_of_job h hend hstderr
  rw [← hresult]
  rw [run_eq, hperform]
  refine ⟨rfl, ?_, ?_, htells.stored⟩
  · exact (congrArg Sink.stored htells.stdout).trans hstdout
  · exact htells.directory.trans hdirectory

end

end Chip8.Command
