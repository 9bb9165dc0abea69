import Chip8.Log.Standard
import Chip8.Proofs.Command.Grammar
import Chip8.Proofs.Command.Running
import Mathlib.Logic.Relation

/-!
# Verbosity and the result

Whether the report is printed and which records are shown is a matter of standard error
alone. A job comes to the same end with its report and without it, as long as the report
can be delivered, and a command line comes to the same end with any number of switches for
quiet and for more put in between its items. This holds as well where a command line is not
understood or asks for help, and for switches behind the place where its reading ends.
-/

namespace Chip8.Command

/-! ## Reading without verbosity -/

/-- A request as far as it is not about what is said on the way. -/
def Request.plain (r : Request) : Request := { r with report := false, verbose := false }

/-- An invocation as far as it is not about what is said on the way. -/
def Invocation.plain : Invocation → Invocation
  | .help => .help
  | .run job _ => .run job.silent false

section

variable {r r' : Request}

/-- An item is taken or refused whatever was said about verbosity. -/
theorem Request.add_plain (h : r.plain = r'.plain) (item : Item) :
    (∃ e, r.add item = .error e ∧ r'.add item = .error e) ∨
      ∃ next next', r.add item = .ok next ∧ r'.add item = .ok next' ∧ next.plain = next'.plain := by
  obtain ⟨rom, output, load, report, verbose⟩ := r
  obtain ⟨rom', output', load', report', verbose'⟩ := r'
  cases h
  cases item with
  | rom path =>
    cases rom with
    | none => exact Or.inr ⟨_, _, rfl, rfl, rfl⟩
    | some rom => exact Or.inl ⟨_, rfl, rfl⟩
  | _ => exact Or.inr ⟨_, _, rfl, rfl, rfl⟩

theorem Request.finish_plain (h : r.plain = r'.plain) :
    r.finish.map Invocation.plain = r'.finish.map Invocation.plain := by
  obtain ⟨rom, output, load, report, verbose⟩ := r
  obtain ⟨rom', output', load', report', verbose'⟩ := r'
  cases h
  cases rom with
  | none => rfl
  | some rom => rfl

/-- What the rest of a command line comes to does not depend on what was said about verbosity
before it. -/
theorem readFrom_plain (h : r.plain = r'.plain) (args : List Bytes) :
    (readFrom r args).map Invocation.plain = (readFrom r' args).map Invocation.plain := by
  fun_induction readFrom r args generalizing r' with
  | case1 r =>
    rw [readFrom]
    exact Request.finish_plain h
  | case2 r arg rest e he =>
    rw [readFrom_cons, he]
  | case3 r arg rest after he =>
    rw [readFrom_cons, he]
    rfl
  | case4 r arg rest item after hhelp he hshorter e hadd =>
    rw [readFrom_of_item he hhelp]
    rcases Request.add_plain h item with ⟨e', hr, hr'⟩ | ⟨next, next', hr, hr', hnext⟩
    · rw [hadd] at hr
      cases hr
      rw [hr']
      rfl
    · rw [hadd] at hr
      cases hr
  | case5 r arg rest item after hhelp he hshorter next hadd ih =>
    rw [readFrom_of_item he hhelp]
    rcases Request.add_plain h item with ⟨e', hr, hr'⟩ | ⟨next, next', hr, hr', hnext⟩
    · rw [hadd] at hr
      cases hr
    · rw [hadd] at hr
      cases hr
      rw [hr']
      exact ih hnext

end

/-! ## Switches between the items -/

/-- The names of the switches that are about verbosity. -/
def switchNames : List Bytes := quietNames ++ verboseNames

section

variable {args args' before rest : List Bytes} {items : List Item} {switch : Bytes}
  {result : Except UsageError Invocation}

theorem readFrom_switch (h : switch ∈ switchNames) (r : Request) (args : List Bytes) :
    ∃ next : Request, next.plain = r.plain ∧ readFrom r (switch :: args) = readFrom next args := by
  rcases List.mem_append.mp h with h | h
  · have hitem : readItem switch args = .ok (.quiet, args) := (Spells.quiet h).readItem_eq rfl
    exact ⟨{ r with report := false }, rfl, readFrom_of_item hitem (by simp)⟩
  · have hitem : readItem switch args = .ok (.verbose, args) := (Spells.verbose h).readItem_eq rfl
    exact ⟨{ r with verbose := true }, rfl, readFrom_of_item hitem (by simp)⟩

/-- The arguments end in an option that is read as one and takes the next argument as its
value, whatever that is. -/
def AwaitsValue (args : List Bytes) : Prop :=
  ∃ items written option, args = written ++ [option] ∧ Written items written ∧ .help ∉ items ∧
    (roms items).length ≤ 1 ∧ option ∈ outputNames ++ baseNames

/-- One switch is put in at a place that is not an option's value. Several at once are put in
one by one, from the last place to the first. -/
def Inserted (args args' : List Bytes) : Prop :=
  ∃ before switch behind, args = before ++ behind ∧ args' = before ++ switch :: behind ∧
    switch ∈ switchNames ∧ ¬AwaitsValue before

/-- Such arguments are not understood as they stand: the value is missing. -/
theorem AwaitsValue.read_eq (h : AwaitsValue args) :
    ∃ name, read args = .error (.missingValue name) := by
  obtain ⟨items, written, option, rfl, hwritten, hhelp, hroms, hoption⟩ := h
  rw [read_append_of_written hwritten hhelp hroms]
  rcases List.mem_append.mp hoption with hoption | hoption
  · exact ⟨_, readFrom_of_unreadable (.noPath hoption)⟩
  · exact ⟨_, readFrom_of_unreadable (.noAddress hoption)⟩

/-- Where reading has ended it has ended for good, unless the arguments just run out: at an
item's end, or where an option lacks its value. -/
theorem Stops.append (h : Stops items rest result) :
    rest = [] ∨ (∃ option ∈ outputNames ++ baseNames, rest = [option]) ∨
      ∀ behind, Stops items (rest ++ behind) result := by
  cases h with
  | complete h => exact Or.inl rfl
  | help h => exact Or.inr (Or.inr fun _ => .help h)
  | fails h =>
    cases h with
    | noRom h => exact Or.inl rfl
    | secondRom h hpath => exact Or.inr (Or.inr fun _ => .fails (.secondRom h hpath))
    | unreadable h =>
      cases h with
      | noPath h => exact Or.inr (Or.inl ⟨_, List.mem_append_left _ h, rfl⟩)
      | noAddress h => exact Or.inr (Or.inl ⟨_, List.mem_append_right _ h, rfl⟩)
      | invalidAddress h hvalue =>
        exact Or.inr (Or.inr fun _ => .fails (.unreadable (.invalidAddress h hvalue)))
      | unknown h hname => exact Or.inr (Or.inr fun _ => .fails (.unreadable (.unknown h hname)))

/-- What the arguments up to some place leave for the rest: a request to go on with, or the
result already. -/
theorem read_append (h : ¬AwaitsValue before) :
    (∃ r, ∀ behind, read (before ++ behind) = readFrom r behind) ∨
      ∃ result, ∀ behind, read (before ++ behind) = result := by
  obtain ⟨items, written, rest, result, rfl, hwritten, hhelp, hroms, hstops⟩ :=
    exists_stops [] (Nat.zero_le 1) before
  rw [List.nil_append] at hroms hstops
  rcases hstops.append with rfl | ⟨option, hoption, rfl⟩ | hended
  · refine Or.inl ⟨gather items, fun behind => ?_⟩
    rw [List.append_nil, read_append_of_written hwritten hhelp hroms]
  · exact absurd ⟨items, written, option, rfl, hwritten, hhelp, hroms, hoption⟩ h
  · refine Or.inr ⟨result, fun behind => ?_⟩
    rw [List.append_assoc, read_append_of_written hwritten hhelp hroms, (hended behind).readFrom_eq]

/-- A switch between the items changes nothing else that is asked for. -/
theorem Inserted.map_plain_read (h : Inserted args args') :
    (read args').map Invocation.plain = (read args).map Invocation.plain := by
  obtain ⟨before, switch, behind, rfl, rfl, hswitch, hplace⟩ := h
  rcases read_append hplace with ⟨r, hread⟩ | ⟨result, hread⟩
  · obtain ⟨next, hnext, hgo⟩ := readFrom_switch hswitch r behind
    rw [hread, hread, hgo]
    exact readFrom_plain hnext behind
  · rw [hread, hread]

/-- Nor do any number of them. -/
theorem map_plain_read_of_inserted (h : Relation.ReflTransGen Inserted args args') :
    (read args').map Invocation.plain = (read args).map Invocation.plain := by
  induction h with
  | refl => rfl
  | tail _ hlast ih => exact hlast.map_plain_read.trans ih

end

/-! ## Runs of the command -/

/-- Two runs that came to the same end, whatever was said on standard error. -/
structure SameEnd (o o' : Outcome) : Prop where
  exitCode : o.exitCode = o'.exitCode
  stdout : o.stdout = o'.stdout
  directory : o.directory = o'.directory

/-- Two runs whose jobs are the same without their reports come to the same end. -/
theorem sameEnd_of_silent {args args' : List Bytes} {job job' : Job} {verbose verbose' : Bool}
    (hread : read args = .ok (.run job verbose)) (hread' : read args' = .ok (.run job' verbose'))
    (hjobs : job'.silent = job.silent) (backend : Log.Backend) (filter : Option String)
    (directory : Directory) :
    SameEnd (run backend args' filter directory) (run backend args filter directory) := by
  have hloud : Job.SameEnd (job.run directory Sink.unlimited) _ :=
    Job.run_sameEnd_silent Sink.neverFails_unlimited Sink.unlimited
  have hloud' : Job.SameEnd (job'.run directory Sink.unlimited) _ :=
    Job.run_sameEnd_silent Sink.neverFails_unlimited Sink.unlimited
  rw [hjobs] at hloud'
  have hsame := hloud'.trans hloud.symm
  obtain ⟨hcode, hstdout, hdirectory, -⟩ := run_of_job backend filter directory hread
  obtain ⟨hcode', hstdout', hdirectory', -⟩ := run_of_job backend filter directory hread'
  refine ⟨?_, ?_, ?_⟩
  · rw [hcode', hcode, hsame.result]
  · rw [hstdout', hstdout, hsame.stdout]
  · rw [hdirectory', hdirectory, hsame.directory]

/-- A run comes to the end that is asked for apart from verbosity. -/
theorem sameEnd_of_map_plain_read {args args' : List Bytes}
    (h : (read args').map Invocation.plain = (read args).map Invocation.plain)
    (backend : Log.Backend) (filter : Option String) (directory : Directory) :
    SameEnd (run backend args' filter directory) (run backend args filter directory) := by
  cases hread : read args with
  | error e =>
    cases hread' : read args' with
    | error e' =>
      rw [hread, hread'] at h
      cases h
      rw [run_of_error hread, run_of_error hread']
      exact ⟨rfl, rfl, rfl⟩
    | ok asked' =>
      rw [hread, hread'] at h
      cases h
  | ok asked =>
    cases hread' : read args' with
    | error e' =>
      rw [hread, hread'] at h
      cases h
    | ok asked' =>
      rw [hread, hread'] at h
      have hplain : asked'.plain = asked.plain := Except.ok.inj h
      match asked, asked' with
      | .help, .help =>
        rw [run_of_help hread, run_of_help hread']
        exact ⟨rfl, rfl, rfl⟩
      | .run job verbose, .run job' verbose' =>
        obtain ⟨hjobs, -⟩ := Invocation.run.inj hplain
        exact sameEnd_of_silent hread hread' hjobs backend filter directory

/-- Verbosity is not seen in the result.
A job with a report that can be delivered comes to the same end as without one, and then
nothing is written where the report would have gone.
A command line comes to the same end with any number of switches for quiet and for more put
in anywhere but in the place of an option's value. -/
theorem verbosity_changes_no_result :
    (∀ (job : Job) (directory : Directory) (sink sink' : Sink), sink.NeverFails →
      Job.SameEnd ({ job with report := true }.run directory sink)
        ({ job with report := false }.run directory sink') ∧
      ({ job with report := false }.run directory sink').sink = sink') ∧
    ∀ (args args' : List Bytes) (backend : Log.Backend) (filter : Option String)
      (directory : Directory), Relation.ReflTransGen Inserted args args' →
        SameEnd (run backend args' filter directory) (run backend args filter directory) := by
  constructor
  · intro job directory sink sink' hsink
    have hsilent : Job.silent { job with report := true } = { job with report := false } := rfl
    rw [← hsilent]
    exact ⟨Job.run_sameEnd_silent hsink sink', Job.sink_run_silent _ directory sink'⟩
  · intro args args' backend filter directory hinserted
    exact sameEnd_of_map_plain_read (map_plain_read_of_inserted hinserted) backend filter directory

/-- The file `-o` for the listing of a jump to itself. A switch may stand before the option
and behind its value, though that value looks like an option. The report of the first run
goes to a sink without end, and the second has no room for any. -/
theorem verbosity_changes_no_result_around_value :
    (Job.SameEnd
        (Job.run { rom := #[0x72], report := true }
          Job.onlyJump Sink.unlimited)
        (Job.run { rom := #[0x72], report := false }
          Job.onlyJump { limit := some 0 }) ∧
      (Job.run { rom := #[0x72], report := false }
          Job.onlyJump { limit := some 0 }).sink =
        { limit := some 0 }) ∧
    (run Log.standard (["-v", "-o", "-o", "--quiet", "r"].map Utf8.encode) none
        Job.onlyJump).exitCode = 0 ∧
      (run Log.standard (["-v", "-o", "-o", "--quiet", "r"].map Utf8.encode) none
        Job.onlyJump).directory.read #[0x2D, 0x6F] =
        .ok (Utf8.encode "200: jmp 200\n") := by
  obtain ⟨hjobs, hruns⟩ := verbosity_changes_no_result
  have hplace : ¬AwaitsValue (["-o", "-o"].map Utf8.encode) := by
    intro h
    obtain ⟨name, hread⟩ := h.read_eq
    have hnone : read (["-o", "-o"].map Utf8.encode) = .error .noRom := by decide +kernel
    rw [hnone] at hread
    cases hread
  have hfront : ¬AwaitsValue [] := by
    intro h
    obtain ⟨name, hread⟩ := h.read_eq
    have hnone : read [] = .error .noRom := by decide +kernel
    rw [hnone] at hread
    cases hread
  have hquiet : Inserted (["-o", "-o", "r"].map Utf8.encode)
      (["-o", "-o", "--quiet", "r"].map Utf8.encode) :=
    ⟨["-o", "-o"].map Utf8.encode, _, _, rfl, rfl, by decide, hplace⟩
  have hverbose : Inserted (["-o", "-o", "--quiet", "r"].map Utf8.encode)
      (["-v", "-o", "-o", "--quiet", "r"].map Utf8.encode) :=
    ⟨[], _, _, rfl, rfl, by decide, hfront⟩
  have hsame := hruns _ _ Log.standard none Job.onlyJump
    (.tail (.single hquiet) hverbose)
  refine ⟨hjobs { rom := #[0x72] } _ _ _ Sink.neverFails_unlimited, ?_, ?_⟩
  · rw [hsame.exitCode]
    decide +kernel
  · rw [hsame.directory]
    decide +kernel

end Chip8.Command
