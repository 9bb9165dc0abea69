import Chip8.Job
import Chip8.Proofs.Report
import Chip8.Proofs.Signals
import Chip8.Proofs.World

/-!
# What a job tells

While a job disassembles, the events go to the writer for its report and the records to the
logger, in the order in which they come out. A report to the caller is delivered to the
caller's sink; one to standard error is told between the records. Neither touches a file.
-/

namespace Chip8.Job

open World (surroundings toCaller Tells)

variable {job : Job} {bytes : Bytes} {d : Disassembly} {w : World}

/-! ## Hearing -/

/-- What a signal puts on standard error, where a report goes too if it is not kept apart. -/
def said (w : World) (report : Bool) : Signal → String
  | .event e => if report then e.line else ""
  | .record r => w.printed r

/-- All that these signals put on standard error. -/
def allSaid (w : World) (report : Bool) (signals : List Signal) : String :=
  String.join (signals.map (said w report))

theorem allSaid_cons (w : World) (report : Bool) (s : Signal) (signals : List Signal) :
    allSaid w report (s :: signals) = said w report s ++ allSaid w report signals := by
  rw [allSaid, List.map_cons, String.join_cons]
  rfl

theorem allSaid_append (w : World) (report : Bool) (signals signals' : List Signal) :
    allSaid w report (signals ++ signals') =
      allSaid w report signals ++ allSaid w report signals' := by
  rw [allSaid, List.map_append, String.join_append, allSaid, allSaid]

/-- The report is printed as a whole or not at all. -/
theorem allSaid_map_event (w : World) (report : Bool) (events : List Report.Event) :
    allSaid w report (events.map .event) =
      String.join (if report then events.map Report.Event.line else []) := by
  rw [allSaid, List.map_map]
  cases report with
  | true => rfl
  | false =>
    induction events with
    | nil => rfl
    | cons e events ih => simpa [said] using ih

theorem allSaid_map_record (w : World) (report : Bool) (records : List Log.Record) :
    allSaid w report (records.map .record) = String.join (records.map w.printed) := by
  rw [allSaid, List.map_map]
  rfl

/-- The logger does not change while it prints. -/
theorem allSaid_of_tells {w' : World} {rs : List Log.Record} {text : String}
    (h : Tells w w' rs text) (report : Bool) : allSaid w' report = allSaid w report := by
  have hsaid : said w' report = said w report := by
    funext s
    cases s with
    | event e => rfl
    | record r => exact congrFun h.printed_eq r
  funext signals
  rw [allSaid, hsaid, allSaid]

theorem allSaid_of_no_logger (h : w.logger = none) (signals : List Signal) :
    allSaid w false signals = "" := by
  induction signals with
  | nil => rfl
  | cons s signals ih =>
    have hsaid : said w false s = "" := by
      cases s with
      | event e => rfl
      | record r => rw [said, World.printed, h, Option.elim_none]
    rw [allSaid_cons, hsaid, ih, String.empty_append]

theorem tells_cons {w' w'' : World} {report : Bool} {s : Signal} {signals : List Signal}
    (h : Tells w w' (Signal.records [s]) (said w report s))
    (h' : Tells w' w'' (Signal.records signals) (allSaid w' report signals)) :
    Tells w w'' (Signal.records (s :: signals)) (allSaid w report (s :: signals)) := by
  have hrecords : Signal.records (s :: signals) =
      Signal.records [s] ++ Signal.records signals := List.filterMap_append (l := [s])
  rw [allSaid_of_tells h] at h'
  rw [hrecords, allSaid_cons]
  exact h.trans h'

theorem forM_quietly (h : w.stderr.NeverFails) (signals : List Signal) :
    ∃ w', signals.forM (quietly surroundings) w = ((), w') ∧ w'.caller = w.caller ∧
      Tells w w' (Signal.records signals) (allSaid w false signals) := by
  induction signals generalizing w with
  | nil => exact ⟨w, rfl, rfl, .refl h⟩
  | cons s signals ih =>
    cases s with
    | event e =>
      obtain ⟨w', hrest, hcaller, htells⟩ := ih h
      exact ⟨w', hrest, hcaller, tells_cons (s := .event e) (.refl h) htells⟩
    | record r =>
      have hlog := World.tells_log h r
      obtain ⟨w', hrest, hcaller, htells⟩ := ih hlog.stderr
      refine ⟨w', hrest, hcaller.trans ?_, tells_cons (s := .record r) hlog htells⟩
      exact World.caller_log w r

/-- One event is printed to the caller as by a printer. -/
theorem run_print_toCaller (failure : Option IoError) (e : Report.Event) (w : World) :
    (Report.print toCaller e).run failure w =
      (((), (Report.Printer.printAll { sink := w.caller, failure } [e]).failure),
        { w with caller := (Report.Printer.printAll { sink := w.caller, failure } [e]).sink }) := by
  cases failure with
  | none =>
    rw [Report.run_print_none, Report.Printer.printAll_singleton]
    rfl
  | some failure =>
    rw [Report.run_print_some]
    rfl

/-- And so are all of them, whatever the logger prints between them. -/
theorem forM_aloud_toCaller (h : w.stderr.NeverFails) (failure : Option IoError)
    (signals : List Signal) :
    ∃ w', (signals.forM (aloud surroundings toCaller)).run failure w =
        (((), (Report.Printer.printAll { sink := w.caller, failure } (Signal.events signals)).failure),
          w') ∧
      w'.caller = (Report.Printer.printAll { sink := w.caller, failure }
        (Signal.events signals)).sink ∧
      Tells w w' (Signal.records signals) (allSaid w false signals) := by
  induction signals generalizing w failure with
  | nil => exact ⟨w, rfl, rfl, .refl h⟩
  | cons s signals ih =>
    have hstep : ((s :: signals).forM (aloud surroundings toCaller)).run failure w =
        (signals.forM (aloud surroundings toCaller)).run
          ((aloud surroundings toCaller s).run failure w).1.2
          ((aloud surroundings toCaller s).run failure w).2 := rfl
    cases s with
    | event e =>
      have hsilent (c : Sink) : Tells w { w with caller := c } [] "" := { Tells.refl h with }
      rw [aloud, run_print_toCaller] at hstep
      obtain ⟨w', hrest, hcaller, htells⟩ := ih
        (hsilent (Report.Printer.printAll { sink := w.caller, failure } [e]).sink).stderr
        (Report.Printer.printAll { sink := w.caller, failure } [e]).failure
      exact ⟨w', hstep.trans hrest, hcaller, tells_cons (s := .event e) (hsilent _) htells⟩
    | record r =>
      have hlog := World.tells_log h r
      obtain ⟨w', hrest, hcaller, htells⟩ := ih hlog.stderr failure
      rw [World.caller_log] at hrest hcaller
      exact ⟨w', hrest, hcaller, tells_cons (s := .record r) hlog htells⟩

/-- On standard error the report and the records are told in one order. -/
theorem forM_aloud_errors (h : w.stderr.NeverFails) (signals : List Signal) :
    ∃ w', (signals.forM (aloud surroundings (World.stream .errors))).run none w = (((), none), w') ∧
      Tells w w' (Signal.records signals) (allSaid w true signals) := by
  induction signals generalizing w with
  | nil => exact ⟨w, rfl, .refl h⟩
  | cons s signals ih =>
    have hstep : ((s :: signals).forM (aloud surroundings (World.stream .errors))).run none w =
        (signals.forM (aloud surroundings (World.stream .errors))).run
          ((aloud surroundings (World.stream .errors) s).run none w).1.2
          ((aloud surroundings (World.stream .errors) s).run none w).2 := rfl
    cases s with
    | event e =>
      obtain ⟨w₁, hwrite, hsaid⟩ := World.write_errors h e.line
      have hprint : (Report.print (World.stream .errors) e).run none w = (((), none), w₁) := by
        rw [Report.run_print_none, map_eq_pure_bind, StateM.bind_apply, hwrite]
        rfl
      rw [aloud, hprint] at hstep
      obtain ⟨w', hrest, htells⟩ := ih hsaid.stderr
      exact ⟨w', hstep.trans hrest, tells_cons (s := .event e) hsaid htells⟩
    | record r =>
      have hlog := World.tells_log h r
      obtain ⟨w', hrest, htells⟩ := ih hlog.stderr
      exact ⟨w', hstep.trans hrest, tells_cons (s := .record r) hlog htells⟩

/-! ## Preparing -/

/-- What becomes of the sink when the report is delivered, if there is to be one. -/
def reporting (job : Job) (sink : Sink) (d : Disassembly) : Sink × Except IoError Unit :=
  if job.report then sink.deliver (d.events.map Report.Event.line) else (sink, .ok ())

theorem prepare_of_error {e : ConfigError} (h : job.config.validate = .error e)
    (out : Writer (StateM World)) (bytes : Bytes) (w : World) :
    job.prepare surroundings out bytes w = (.error (.config e), w) := by
  rw [prepare]
  split
  · rw [disassembleWith_of_error _ _ _ h]
    rfl
  · rw [disassembleWith_of_error _ _ _ h]
    rfl

/-- Without a report only the records are told. -/
theorem prepare_quietly (h : w.stderr.NeverFails) (hd : disassemble job.config bytes = .ok d)
    (hreport : job.report = false) (out : Writer (StateM World)) :
    ∃ w', job.prepare surroundings out bytes w = (.ok d, w') ∧ w'.caller = w.caller ∧
      Tells w w' (Signal.records d.signals) (allSaid w false d.signals) := by
  obtain ⟨hvalid, rfl⟩ := eq_of_disassemble hd
  obtain ⟨w', hheard, hcaller, htells⟩ := forM_quietly h
    (Disassembly.ofImage job.config (.ofBytes bytes)).signals
  refine ⟨w', ?_, hcaller, htells⟩
  rw [prepare, hreport, if_neg Bool.false_ne_true, disassembleWith_of_ok _ _ _ hvalid,
    StateM.bind_apply, StateM.bind_apply, hheard]
  rfl

/-- Behind a report its failure is told, if there was one. -/
theorem prepare_aloud (hd : disassemble job.config bytes = .ok d) (hreport : job.report = true)
    {out : Writer (StateM World)} {failure : Option IoError} {w' : World}
    (h : (d.signals.forM (aloud surroundings out)).run none w = (((), failure), w')) :
    job.prepare surroundings out bytes w =
      (((Report.finish out failure w').1.map fun () => d).mapError .writeReport,
        (Report.finish out failure w').2) := by
  obtain ⟨hvalid, rfl⟩ := eq_of_disassemble hd
  have hheard : (disassembleWith (aloud surroundings out) job.config bytes).run none w =
      ((.ok (.ofImage job.config (.ofBytes bytes)), failure), w') := by
    rw [disassembleWith_of_ok _ _ _ hvalid, StateT.run_bind, StateM.bind_apply, h]
    rfl
  rw [prepare, if_pos hreport, StateM.bind_apply, hheard]
  simp only [StateM.bind_apply]
  cases Report.finish out failure w' with
  | mk outcome w'' =>
    cases outcome with
    | ok u => rfl
    | error e => rfl

theorem finish_toCaller (failure : Option IoError) (w : World) :
    Report.finish toCaller failure w =
      ((Report.Printer.finish { sink := w.caller, failure }).2,
        { w with caller := (Report.Printer.finish { sink := w.caller, failure }).1 }) := by
  cases failure with
  | none => rfl
  | some failure => rfl

/-- A report to the caller is delivered to the caller's sink. -/
theorem prepare_toCaller (h : w.stderr.NeverFails) (hd : disassemble job.config bytes = .ok d) :
    ∃ w', job.prepare surroundings toCaller bytes w =
        (((job.reporting w.caller d).2.map fun () => d).mapError .writeReport, w') ∧
      w'.caller = (job.reporting w.caller d).1 ∧
      Tells w w' (Signal.records d.signals) (allSaid w false d.signals) := by
  cases hreport : job.report with
  | false =>
    obtain ⟨w', hprepare, hcaller, htells⟩ := prepare_quietly h hd hreport toCaller
    rw [reporting, hreport]
    exact ⟨w', hprepare, hcaller, htells⟩
  | true =>
    obtain ⟨w', hheard, hcaller, htells⟩ := forM_aloud_toCaller h none d.signals
    have hprepare := prepare_aloud hd hreport hheard
    rw [finish_toCaller, hcaller, Disassembly.events_signals, Report.Printer.finish_printAll] at hprepare
    rw [reporting, if_pos hreport]
    exact ⟨_, hprepare, rfl, { htells with }⟩

/-- A report on standard error is told between the records. -/
theorem prepare_errors (h : w.stderr.NeverFails) (hd : disassemble job.config bytes = .ok d) :
    ∃ w', job.prepare surroundings (World.stream .errors) bytes w = (.ok d, w') ∧
      Tells w w' (Signal.records d.signals) (allSaid w job.report d.signals) := by
  cases hreport : job.report with
  | false =>
    obtain ⟨w', hprepare, -, htells⟩ := prepare_quietly h hd hreport (World.stream .errors)
    exact ⟨w', hprepare, htells⟩
  | true =>
    obtain ⟨w₁, hheard, htells⟩ := forM_aloud_errors h d.signals
    obtain ⟨w', hflush, hflushed⟩ := World.flush_errors htells.stderr
    have hprepare := prepare_aloud hd hreport hheard
    rw [Report.finish, hflush] at hprepare
    refine ⟨w', hprepare, ?_⟩
    have hall := htells.trans hflushed
    rwa [List.append_nil, String.append_empty] at hall

end Chip8.Job
