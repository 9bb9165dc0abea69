import Chip8.World
import Chip8.Proofs.Directory
import Chip8.Proofs.Listing.Writing

/-!
# What is written and what is said in a world

A listing is written to a standard stream or to a file as to a sink that stands alone, and
all the rest of the world stays as it is. What the logger prints and what a report says comes
to standard error in the order in which it is said, and touches no file and nothing on
standard output.
-/

namespace Chip8.World

variable {w w' : World} {l : Listing} {path : Path} {place : Place}

/-! ## Writing a listing -/

theorem isPart_stdout : Sink.IsPart stdout fun s w => { w with stdout := s } :=
  ⟨fun _ _ => rfl, fun _ _ _ => rfl, fun _ => rfl⟩

theorem isPart_stderr : Sink.IsPart stderr fun s w => { w with stderr := s } :=
  ⟨fun _ _ => rfl, fun _ _ _ => rfl, fun _ => rfl⟩

theorem writeTo_output (l : Listing) (w : World) :
    l.writeTo (stream .output) w =
      ((w.stdout.run l.writeTo).2, { w with stdout := (w.stdout.run l.writeTo).1 }) :=
  isPart_stdout.run l.writeTo (fun _ h => l.alike_writeTo h) w

theorem writeTo_errors (l : Listing) (w : World) :
    l.writeTo (stream .errors) w =
      ((w.stderr.run l.writeTo).2, { w with stderr := (w.stderr.run l.writeTo).1 }) :=
  isPart_stderr.run l.writeTo (fun _ h => l.alike_writeTo h) w

/-- A file that has just been created, as a sink. -/
def newFile (w : World) (place : Place) : Sink := { w.directory.room place with stored := #[] }

/-- A sink that takes bytes as a new file at the place does, and what it holds stands there. -/
def IsFile (w₀ : World) (place : Place) (s : Sink) (w : World) : Prop :=
  ∃ contents flushes, s = { w₀.directory.room place with stored := contents, flushes } ∧
    w = { w₀ with directory := w₀.directory.put place (.file contents) }

theorem sink_put (dir : Directory) (hplace : place.names ≠ []) (contents : Bytes) :
    (dir.put place (.file contents)).sink place = { dir.room place with stored := contents } := by
  rw [Directory.sink, Directory.contents, Directory.at?_put _ _ _ hplace, Directory.room_put]

theorem alike_toFile (w₀ : World) (hplace : place.names ≠ []) :
    Writer.Alike (IsFile w₀ place) Sink.itself (toFile place) where
  write := by
    rintro chunk _ _ ⟨contents, flushes, rfl, rfl⟩
    simp only [toFile, Sink.within, sink_put _ hplace, Directory.put_put]
    exact ⟨rfl, _, flushes, rfl, rfl⟩
  flush := by
    rintro _ _ ⟨contents, flushes, rfl, rfl⟩
    simp only [toFile, Sink.within, sink_put _ hplace, Directory.put_put]
    exact ⟨rfl, _, flushes + 1, rfl, rfl⟩

/-- A file that has just been created takes a listing as a new sink does. -/
theorem writeTo_toFile (l : Listing) (w : World) (hplace : place.names ≠ []) :
    l.writeTo (toFile place) { w with directory := w.directory.put place (.file #[]) } =
      (((w.newFile place).run l.writeTo).2,
        { w with directory :=
            w.directory.put place (.file ((w.newFile place).run l.writeTo).1.stored) }) := by
  obtain ⟨hanswer, contents, flushes, hsink, hworld⟩ := l.alike_writeTo (alike_toFile w hplace)
    (w.newFile place) _ ⟨#[], _, rfl, rfl⟩
  refine Prod.ext hanswer.symm (hworld.trans ?_)
  have hstored : ((w.newFile place).run l.writeTo).1.stored = contents := congrArg Sink.stored hsink
  rw [hstored]

/-- A device that keeps nothing and never fails takes every listing. -/
theorem writeTo_device {s : Sink} (h : s.NeverFails) (l : Listing) (w : World) :
    l.writeTo (Sink.within (fun _ => s) fun _ w => w) w = (.ok (), w) := by
  have halike : Writer.Alike (fun t w' => t.NeverFails ∧ w' = w) Sink.itself
      (Sink.within (fun _ => s) fun _ w => w) :=
    { write := by
        rintro chunk t _ ⟨ht, rfl⟩
        simp only [Sink.itself, Sink.within, id, ht.write, h.write]
        exact ⟨trivial, ⟨ht.limit, ht.flushError⟩, trivial⟩
      flush := by
        rintro t _ ⟨ht, rfl⟩
        simp only [Sink.itself, Sink.within, id, ht.flush, h.flush]
        exact ⟨trivial, ⟨ht.limit, ht.flushError⟩, trivial⟩ }
  obtain ⟨hanswer, -, hworld⟩ := l.alike_writeTo halike s w ⟨h, rfl⟩
  exact Prod.ext (hanswer.symm.trans (l.snd_writeTo_of_neverFails h)) hworld

theorem opened_of_isRegular {dir : Directory} (h : dir.IsRegular place) :
    opened dir place = toFile place := by
  unfold opened
  split
  · next device hdevice => exact absurd hdevice (h device)
  · rfl

theorem opened_of_device {dir : Directory} {device : Device}
    (h : dir.at? place = some (.device device)) : opened dir place = toOutlet device.outlet := by
  rw [opened, h]

/-- A standard stream that never fails takes every listing. -/
theorem writeTo_stream (hout : w.stdout.NeverFails) (herr : w.stderr.NeverFails) (s : Stream)
    (l : Listing) :
    (l.writeTo (stream s) w).1 = .ok () ∧ (l.writeTo (stream s) w).2.directory = w.directory := by
  cases s with
  | output =>
    rw [writeTo_output, l.snd_writeTo_of_neverFails hout]
    exact ⟨rfl, rfl⟩
  | errors =>
    rw [writeTo_errors, l.snd_writeTo_of_neverFails herr]
    exact ⟨rfl, rfl⟩

/-- No listing goes to the caller. -/
theorem caller_writeTo_opened (dir : Directory) (place : Place) (l : Listing) (w : World) :
    (l.writeTo (opened dir place) w).2.caller = w.caller := by
  have hkeeps : (∀ chunk w, ((opened dir place).write chunk w).2.caller = w.caller) ∧
      ∀ w, ((opened dir place).flush w).2.caller = w.caller := by
    unfold opened
    split
    · next device _ =>
      cases device.outlet with
      | stream s => cases s <;> exact ⟨fun _ _ => rfl, fun _ => rfl⟩
      | sink s => exact ⟨fun _ _ => rfl, fun _ => rfl⟩
    · exact ⟨fun _ _ => rfl, fun _ => rfl⟩
  exact Listing.keeps_writeTo caller hkeeps.1 hkeeps.2 l w

/-- Standard streams that never fail take every listing, so a listing that could not be written
was meant for something else. -/
theorem stdout_writeTo_opened {e : IoError} {dir : Directory} (hout : w.stdout.NeverFails)
    (herr : w.stderr.NeverFails) (h : (l.writeTo (opened dir place) w).1 = .error e) :
    (l.writeTo (opened dir place) w).2.stdout = w.stdout := by
  unfold opened at h ⊢
  split at h
  · next device _ =>
    cases houtlet : device.outlet with
    | stream s =>
      rw [houtlet, toOutlet, (writeTo_stream hout herr s l).1] at h
      cases h
    | sink s => exact Listing.keeps_writeTo stdout (fun _ _ => rfl) (fun _ => rfl) l w
  · exact Listing.keeps_writeTo stdout (fun _ _ => rfl) (fun _ => rfl) l w

/-! ## What is said -/

/-- What the logger prints for a record, if one has been set up. -/
def printed (w : World) (r : Log.Record) : String := w.logger.elim "" (·.print r)

/-- From one world to the other, these records were written and this text came to standard
error, which still takes everything. -/
structure Tells (w w' : World) (records : List Log.Record) (text : String) : Prop where
  directory : w'.directory = w.directory
  stdout : w'.stdout = w.stdout
  logger : w'.logger = w.logger
  records : w'.records = w.records ++ records
  stderr : w'.stderr.NeverFails
  stored : w'.stderr.stored = w.stderr.stored ++ Utf8.encode text

namespace Tells

variable {w w' w'' : World} {rs rs' : List Log.Record} {text text' : String}

theorem refl (h : w.stderr.NeverFails) : Tells w w [] "" where
  directory := rfl
  stdout := rfl
  logger := rfl
  records := (List.append_nil _).symm
  stderr := h
  stored := by
    have hempty : Utf8.encode "" = #[] := by decide
    rw [hempty, Array.append_empty]

theorem trans (h : Tells w w' rs text) (h' : Tells w' w'' rs' text') :
    Tells w w'' (rs ++ rs') (text ++ text') where
  directory := h'.directory.trans h.directory
  stdout := h'.stdout.trans h.stdout
  logger := h'.logger.trans h.logger
  records := by rw [h'.records, h.records, List.append_assoc]
  stderr := h'.stderr
  stored := by rw [h'.stored, h.stored, Utf8.encode_append, Array.append_assoc]

/-- The logger stays what it is, and so does what it prints. -/
theorem printed_eq (h : Tells w w' rs text) : w'.printed = w.printed := by
  funext r
  rw [printed, printed, h.logger]

end Tells

theorem caller_log (w : World) (r : Log.Record) : (w.log r).caller = w.caller := by
  rw [log]
  split
  · rfl
  · rfl

section

variable (h : w.stderr.NeverFails)

include h

theorem tells_sayError (text : String) : Tells w (w.sayError text) [] text where
  directory := rfl
  stdout := rfl
  logger := rfl
  records := (List.append_nil _).symm
  stderr := ⟨h.limit, h.flushError⟩
  stored := by rw [sayError, h.write]

theorem tells_log (r : Log.Record) : Tells w (w.log r) [r] (w.printed r) := by
  have hnoted : Tells w { w with records := w.records ++ [r] } [r] "" :=
    { Tells.refl h with records := rfl }
  obtain ⟨directory, stdout, stderr, caller, filter, backend, logger, records⟩ := w
  cases logger with
  | none => exact hnoted
  | some logger =>
    have hsaid := hnoted.trans (tells_sayError hnoted.stderr (logger.print r))
    rwa [String.empty_append, List.append_nil] at hsaid

theorem write_errors (text : String) :
    ∃ w', (stream .errors).write (Utf8.encode text) w = (.ok (), w') ∧ Tells w w' [] text := by
  refine ⟨w.sayError text, ?_, tells_sayError h text⟩
  simp only [stream, Sink.within, sayError, h.write]

theorem flush_errors : ∃ w', (stream .errors).flush w = (.ok (), w') ∧ Tells w w' [] "" := by
  refine ⟨{ w with stderr := { w.stderr with flushes := w.stderr.flushes + 1 } }, ?_, ?_⟩
  · simp only [stream, Sink.within, h.flush]
  · exact { Tells.refl h with stderr := ⟨h.limit, h.flushError⟩ }

theorem tells_printLine (text : String) : Tells w (w.printLine .errors text) [] (text ++ "\n") := by
  obtain ⟨w', hwrite, htells⟩ := write_errors h (text ++ "\n")
  rw [printLine, hwrite]
  exact htells

end

theorem printLine_output (h : w.stdout.NeverFails) (text : String) :
    w.printLine .output text =
      { w with stdout :=
          { w.stdout with stored := w.stdout.stored ++ Utf8.encode (text ++ "\n") } } := by
  simp only [printLine, stream, Sink.within, h.write]

/-! ## Worlds that differ in what was said -/

/-- Worlds with the same files and the same on standard output, and with standard errors that
are related in some way. -/
structure SameBut (E : Sink → Sink → Prop) (w w' : World) : Prop where
  directory : w.directory = w'.directory
  stdout : w.stdout = w'.stdout
  stderr : E w.stderr w'.stderr

/-- Two sinks that never fail and have taken the same since they held these bytes. -/
def TookAlike (before before' : Bytes) (s s' : Sink) : Prop :=
  s.NeverFails ∧ s'.NeverFails ∧
    ∃ taken, s.stored = before ++ taken ∧ s'.stored = before' ++ taken

theorem alike_itself (before before' : Bytes) :
    Writer.Alike (TookAlike before before') Sink.itself Sink.itself where
  write := by
    rintro chunk s s' ⟨hs, hs', taken, hstored, hstored'⟩
    simp only [Sink.itself, Sink.within, id, hs.write, hs'.write, hstored, hstored']
    exact ⟨trivial, ⟨hs.limit, hs.flushError⟩, ⟨hs'.limit, hs'.flushError⟩, taken ++ chunk,
      Array.append_assoc, Array.append_assoc⟩
  flush := by
    rintro s s' ⟨hs, hs', htaken⟩
    simp only [Sink.itself, Sink.within, id, hs.flush, hs'.flush]
    exact ⟨trivial, ⟨hs.limit, hs.flushError⟩, ⟨hs'.limit, hs'.flushError⟩, htaken⟩

section

variable {E : Sink → Sink → Prop} (hE : Writer.Alike E Sink.itself Sink.itself)

include hE

theorem alike_stream (s : Stream) : Writer.Alike (SameBut E) (stream s) (stream s) := by
  cases s with
  | output =>
    constructor
    · rintro chunk v w ⟨hdirectory, hstdout, hstderr⟩
      simp only [stream, Sink.within, hstdout]
      exact ⟨trivial, hdirectory, rfl, hstderr⟩
    · rintro v w ⟨hdirectory, hstdout, hstderr⟩
      simp only [stream, Sink.within, hstdout]
      exact ⟨trivial, hdirectory, rfl, hstderr⟩
  | errors =>
    constructor
    · rintro chunk v w ⟨hdirectory, hstdout, hstderr⟩
      obtain ⟨hanswer, hstates⟩ := hE.write chunk _ _ hstderr
      exact ⟨hanswer, hdirectory, hstdout, hstates⟩
    · rintro v w ⟨hdirectory, hstdout, hstderr⟩
      obtain ⟨hanswer, hstates⟩ := hE.flush _ _ hstderr
      exact ⟨hanswer, hdirectory, hstdout, hstates⟩

theorem alike_opened (dir : Directory) (place : Place) :
    Writer.Alike (SameBut E) (opened dir place) (opened dir place) := by
  unfold opened
  split
  · next device _ =>
    cases device.outlet with
    | stream s => exact alike_stream hE s
    | sink s => exact ⟨fun _ _ _ h => ⟨rfl, h⟩, fun _ _ h => ⟨rfl, h⟩⟩
  · constructor
    · rintro chunk v w ⟨hdirectory, hstdout, hstderr⟩
      simp only [toFile, Sink.within, hdirectory]
      exact ⟨trivial, rfl, hstdout, hstderr⟩
    · rintro v w ⟨hdirectory, hstdout, hstderr⟩
      simp only [toFile, Sink.within, hdirectory]
      exact ⟨trivial, rfl, hstdout, hstderr⟩

end

end Chip8.World
