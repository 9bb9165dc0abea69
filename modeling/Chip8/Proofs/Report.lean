import Chip8.Report
import Chip8.Proofs.Alike
import Chip8.Proofs.Sink

/-!
# Printing a report

A printer keeps the first failure to itself until it is asked at the end, and writes nothing
after it. Printing events one by one therefore comes to the same as writing their lines as
one text, and then flushing unless the writing has failed. So a sink with limited room holds
the beginning of the text, as much of it as there is room for, whichever line the end of the
room falls into.
-/

namespace Chip8.Report

/-- The lines of a report as one text. -/
def text (events : List Event) : String := String.join (events.map Event.line)

/-- How many bytes the lines of a report take. -/
def size (events : List Event) : Nat := (Utf8.encode (text events)).size

/-- All lines of a report have room in a sink with this limit. -/
def Fits (limit : Option Nat) (events : List Event) : Prop := ∀ l ∈ limit, size events ≤ l

section

variable {m : Type → Type} [Monad m] [LawfulMonad m] (out : Writer m)

/-- What is kept of a write. -/
def failureOf : Except IoError Unit → Option IoError
  | .ok () => none
  | .error failure => some failure

theorem run_print_none (e : Event) :
    (print out e).run none = (fun v => ((), failureOf v)) <$> out.write (Utf8.encode e.line) := by
  rw [map_eq_pure_bind]
  simp only [print, StateT.run_bind, StateT.run_get, pure_bind, StateT.run_monadLift, monadLift_self,
    bind_assoc]
  congr 1
  funext v
  cases v with
  | ok u => rfl
  | error failure => rfl

theorem run_print_some (e : Event) (failure : IoError) :
    (print out e).run (some failure) = pure ((), some failure) := by
  simp [print]

end

namespace Printer

/-- Events are printed one by one. -/
theorem printAll_cons (p : Printer) (e : Event) (events : List Event) :
    p.printAll (e :: events) = (p.printAll [e]).printAll events := rfl

theorem printAll_append (p : Printer) (before behind : List Event) :
    p.printAll (before ++ behind) = (p.printAll before).printAll behind := by
  induction before generalizing p with
  | nil => rfl
  | cons e before ih => rw [List.cons_append, printAll_cons, ih, ← printAll_cons]

theorem printAll_of_failed (p : Printer) (events : List Event) {failure : IoError}
    (h : p.failure = some failure) : p.printAll events = p := by
  obtain ⟨s, _⟩ := p
  cases h
  induction events with
  | nil => rfl
  | cons e events ih => exact ih

/-- A printer that has failed tells of it and is done. -/
theorem finish_of_failed (s : Sink) (failure : IoError) :
    finish { sink := s, failure := some failure } = (s, .error failure) := rfl

/-- The printer that is left when its writing has come out like this. -/
def after (r : Sink × Except IoError Unit) : Printer where
  sink := r.1
  failure := failureOf r.2

theorem printAll_singleton (s : Sink) (e : Event) :
    printAll { sink := s } [e] = after (s.write (Utf8.encode e.line)) := by
  have hprint : ([e].forM (print Sink.itself)).run none = (print Sink.itself e).run none := by simp
  rw [run_print_none] at hprint
  rw [printAll, Sink.run_eq, hprint]
  rfl

/-- Printing is one write of the whole text. -/
theorem printAll_eq_after (s : Sink) (events : List Event) :
    printAll { sink := s } events = after (s.write (Utf8.encode (text events))) := by
  induction events generalizing s with
  | nil =>
    have hempty : Utf8.encode (text []) = #[] := by decide
    rw [hempty, s.write_empty]
    rfl
  | cons e events ih =>
    have htext : text (e :: events) = e.line ++ text events := String.join_cons
    rw [printAll_cons, printAll_singleton, htext, Utf8.encode_append, s.write_append]
    cases s.write (Utf8.encode e.line) with
    | mk s' outcome =>
      cases outcome with
      | ok u => exact ih s'
      | error failure =>
        -- from here on the printer only keeps its failure
        exact printAll_of_failed { sink := s', failure := some failure } events rfl

/-- A printer delivers the lines of the events. -/
theorem finish_printAll (s : Sink) (events : List Event) :
    (printAll { sink := s } events).finish = s.deliver (events.map Event.line) := by
  rw [printAll_eq_after, Sink.deliver, Sink.writeAll_encode, ← text]
  cases s.write (Utf8.encode (text events)) with
  | mk s' outcome =>
    cases outcome with
    | ok u => rfl
    | error failure => rfl

/-! ## Limited room -/

variable {s : Sink} {events : List Event}

theorem stored_printAll (s : Sink) (events : List Event) :
    (printAll { sink := s } events).sink.stored =
      s.stored ++ (Utf8.encode (text events)).take (s.room (size events)) := by
  rw [printAll_eq_after, size, ← s.stored_write]
  rfl

theorem fits_iff_room (h : s.stored = #[]) :
    Fits s.limit events ↔ s.room (size events) = size events :=
  (s.room_eq_iff_of_new h (size events)).symm

theorem finish_of_fits (hnew : s.stored = #[]) (h : Fits s.limit events) :
    (printAll { sink := s } events).finish =
      ({ s with stored := Utf8.encode (text events) } : Sink).flush := by
  have hwrite := s.write_of_fits ((fits_iff_room hnew).mp h)
  rw [hnew, Array.empty_append] at hwrite
  rw [printAll_eq_after, hwrite]
  rfl

theorem printAll_of_not_fits (hnew : s.stored = #[]) (h : ¬Fits s.limit events) :
    printAll { sink := s } events =
      { sink := { s with stored := s.stored ++
          (Utf8.encode (text events)).take (s.room (size events)) }
        failure := some s.fullError } := by
  have hle := s.room_le (size events)
  have hroom : s.room (size events) < size events :=
    Nat.lt_of_le_of_ne hle fun heq => h ((fits_iff_room hnew).mpr heq)
  rw [printAll_eq_after, s.write_of_not_fits hroom]
  rfl

/-- A report that is printed to a new sink, of any limit, and whatever its events are.
At every moment the sink holds the beginning of the text of the events so far, cut at its
limit. The event whose line goes beyond the limit is the last one that changes anything: the
error of that write is kept, and neither it nor the sink is touched by what follows.
The report ends well exactly if all of its text has room and the flush succeeds. If there was
no room, it ends with the error of the first write that failed, which is the one of the sink,
or that nothing was written if the sink just takes nothing, and the sink is not flushed, even
if that would fail too. If there was room, the sink is flushed once, and the report ends with
the error of the flush if it has one. -/
theorem report_ends_at_limit (s : Sink) (hnew : s.stored = #[]) (events : List Event) :
    (∀ before behind, events = before ++ behind →
      (printAll { sink := s } before).sink.stored =
        (Utf8.encode (text before)).take (s.limit.elim (size before) (min · (size before))) ∧
      (¬Fits s.limit before →
        (printAll { sink := s } before).failure = some s.fullError ∧
        printAll { sink := s } events = printAll { sink := s } before)) ∧
    ((printAll { sink := s } events).finish.2 = .ok () ↔
      Fits s.limit events ∧ s.flushError = none) ∧
    (¬Fits s.limit events →
      (∀ e, s.whenFull = .fails e → (printAll { sink := s } events).finish.2 = .error e) ∧
      (s.whenFull = .takesNothing →
        (printAll { sink := s } events).finish.2 = .error .nothingWritten) ∧
      (printAll { sink := s } events).finish.1.flushes = s.flushes) ∧
    (Fits s.limit events →
      (∀ e, s.flushError = some e → (printAll { sink := s } events).finish.2 = .error e) ∧
      (printAll { sink := s } events).finish.1.flushes = s.flushes + 1) := by
  refine ⟨?_, ?_, ?_, ?_⟩
  · rintro before behind rfl
    constructor
    · rw [stored_printAll, hnew, Array.empty_append, s.room_of_new hnew]
    · intro hfull
      have hfailed : (printAll { sink := s } before).failure = some s.fullError := by
        rw [printAll_of_not_fits hnew hfull]
      exact ⟨hfailed, by rw [printAll_append, printAll_of_failed _ _ hfailed]⟩
  · by_cases h : Fits s.limit events
    · rw [finish_of_fits hnew h]
      cases s.flushError with
      | none => simp [Sink.flush, h]
      | some e => simp [Sink.flush]
    · rw [printAll_of_not_fits hnew h, finish_of_failed]
      simp [h]
  · intro h
    rw [printAll_of_not_fits hnew h, finish_of_failed]
    refine ⟨?_, ?_, rfl⟩
    · intro e he
      simp only [Sink.fullError, he]
    · intro he
      simp only [Sink.fullError, he]
  · intro h
    rw [finish_of_fits hnew h]
    refine ⟨?_, rfl⟩
    intro e he
    simp only [Sink.flush, he]

/-- A sink that ends four bytes into the second line of a report, and whose flush fails. -/
def narrow : Sink where
  limit := some 30
  whenFull := .fails (.described .brokenPipe "closed")
  flushError := some (.described .other "flush failed")

/-- Four bytes of the second line are stored, nothing of the third, and the report ends with
the error of the second write. -/
theorem report_ends_at_limit_within_line :
    narrow.stored = #[] ∧ ¬Fits narrow.limit [.analysisStarted 2, .trailingByte 7] ∧
      ¬Fits narrow.limit [.analysisStarted 2, .trailingByte 7, .trailingByte 8] ∧
      (printAll { sink := narrow } [.analysisStarted 2, .trailingByte 7]).sink.stored =
        Utf8.encode "Analysing reachability...\ntrai" ∧
      (printAll { sink := narrow } [.analysisStarted 2, .trailingByte 7,
        .trailingByte 8]).finish.2 = .error (.described .brokenPipe "closed") := by
  have hcut : ¬Fits narrow.limit [.analysisStarted 2, .trailingByte 7] := by
    intro h
    exact absurd (h 30 rfl) (by decide +kernel)
  have hfull : ¬Fits narrow.limit [.analysisStarted 2, .trailingByte 7, .trailingByte 8] := by
    intro h
    exact absurd (h 30 rfl) (by decide +kernel)
  obtain ⟨hbegins, -, hends, -⟩ := report_ends_at_limit narrow rfl
    [.analysisStarted 2, .trailingByte 7, .trailingByte 8]
  obtain ⟨hstored, -⟩ := hbegins [.analysisStarted 2, .trailingByte 7] [.trailingByte 8] rfl
  obtain ⟨herror, -, -⟩ := hends hfull
  refine ⟨rfl, hcut, hfull, hstored.trans ?_, herror _ rfl⟩
  decide +kernel

end Printer

end Chip8.Report
