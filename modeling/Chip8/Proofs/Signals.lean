import Chip8.Disassembly
import Chip8.Proofs.Alike

/-!
# What is told of a disassembly

A disassembly is the same whoever hears of it, and each hearer is told the same signals, one
by one. A configuration is refused before there is anything to tell. What is kept by someone
who keeps every signal is therefore what anyone hears, whatever they do with it.
-/

namespace Chip8

namespace Signal

theorem events_append (signals signals' : List Signal) :
    events (signals ++ signals') = events signals ++ events signals' := List.filterMap_append

theorem events_map_event (es : List Report.Event) : events (es.map event) = es := by
  rw [events, List.filterMap_map]
  exact List.filterMap_some

theorem events_map_record (rs : List Log.Record) : events (rs.map record) = [] := by
  rw [events, List.filterMap_map, List.filterMap_eq_nil_iff]
  exact fun _ _ => rfl

theorem forM_keep (signals : List Signal) (kept : Array Signal) :
    signals.forM keep kept = ((), kept ++ signals.toArray) := by
  induction signals generalizing kept with
  | nil => rw [Array.append_empty]; rfl
  | cons s signals ih =>
    have hstep : (s :: signals).forM keep kept = signals.forM keep (kept.push s) := rfl
    rw [hstep, ih]
    simp

end Signal

namespace Disassembly

/-- What is told when the analysis is done. -/
def findings (d : Disassembly) : List Report.Event :=
  .analysisFinished d.reachability.count d.image.size ::
    d.image.words.toList.mapIdx d.classification ++
    d.image.trailing.toList.map .trailingByte

def events (d : Disassembly) : List Report.Event :=
  .analysisStarted d.image.size :: d.findings

/-- The analysis speaks between the first two events, and the image before all of them. -/
def signals (d : Disassembly) : List Signal :=
  d.image.warnings.map .record ++
    .event (.analysisStarted d.image.size) :: .record d.reachability.record ::
      d.findings.map .event

/-- The records stand between the events and change nothing about them. -/
theorem events_signals (d : Disassembly) : Signal.events d.signals = d.events := by
  rw [signals, Signal.events_append, Signal.events_map_record, List.nil_append]
  exact congrArg (List.cons _) (Signal.events_map_event d.findings)

end Disassembly

section

variable {m : Type → Type} [Monad m] (hear : Signal → m Unit) (config : Config) (bytes : Bytes)

theorem disassembleWith_of_error {e : ConfigError} (h : config.validate = .error e) :
    disassembleWith hear config bytes = return .error e := by
  rw [disassembleWith, h]

variable [LawfulMonad m]

theorem Image.load_eq :
    Image.load hear bytes = do
      ((Image.ofBytes bytes).warnings.map .record).forM hear
      return .ofBytes bytes := by
  rw [Image.load, List.forM_eq_forM, List.forM_eq_forM, List.forM_map]

theorem Disassembly.make_eq (image : Image) :
    make hear config image = do
      hear (.event (.analysisStarted image.size))
      hear (.record (ofImage config image).reachability.record)
      ((ofImage config image).findings.map .event).forM hear
      return ofImage config image := by
  simp only [make, findings, List.mapIdx_eq_zipIdx_map, List.forM_eq_forM, List.map_append,
    List.map_cons, List.map_map, List.forM_append, List.forM_map, List.cons_append, List.forM_cons,
    bind_assoc]
  rfl

theorem disassembleWith_of_ok (h : config.validate = .ok ()) :
    disassembleWith hear config bytes = do
      (Disassembly.ofImage config (.ofBytes bytes)).signals.forM hear
      return .ok (.ofImage config (.ofBytes bytes)) := by
  rw [disassembleWith, h]
  simp only [Image.load_eq, Disassembly.make_eq, Disassembly.signals, List.forM_eq_forM,
    List.forM_append, List.forM_cons, bind_assoc, pure_bind]
  rfl

end

section

variable {config : Config} {e : ConfigError}

theorem heard_of_error (h : config.validate = .error e) (bytes : Bytes) :
    heard config bytes = (.error e, []) := by
  rw [heard, disassembleWith_of_error _ _ _ h]
  rfl

theorem heard_of_ok (h : config.validate = .ok ()) (bytes : Bytes) :
    heard config bytes =
      (.ok (.ofImage config (.ofBytes bytes)),
        (Disassembly.ofImage config (.ofBytes bytes)).signals) := by
  rw [heard, disassembleWith_of_ok _ _ _ h, StateM.bind_apply, Signal.forM_keep, StateM.pure_apply,
    Array.empty_append]

theorem disassemble_of_error (h : config.validate = .error e) (bytes : Bytes) :
    disassemble config bytes = .error e := by
  rw [disassemble, heard_of_error h]

theorem disassemble_of_ok (h : config.validate = .ok ()) (bytes : Bytes) :
    disassemble config bytes = .ok (.ofImage config (.ofBytes bytes)) := by
  rw [disassemble, heard_of_ok h]

theorem told_of_error (h : config.validate = .error e) (bytes : Bytes) : told config bytes = [] := by
  rw [told, heard_of_error h]

theorem told_of_ok (h : config.validate = .ok ()) (bytes : Bytes) :
    told config bytes = (Disassembly.ofImage config (.ofBytes bytes)).signals := by
  rw [told, heard_of_ok h]

theorem eq_of_disassemble {bytes : Bytes} {d : Disassembly} (h : disassemble config bytes = .ok d) :
    config.validate = .ok () ∧ d = .ofImage config (.ofBytes bytes) := by
  cases hvalid : config.validate with
  | error e =>
    rw [disassemble_of_error hvalid] at h
    cases h
  | ok u =>
    rw [disassemble_of_ok hvalid] at h
    cases h
    exact ⟨rfl, rfl⟩

end

/-- Whoever hears of a disassembly is told what anyone is told, and it comes to the same. -/
theorem disassembleWith_eq {m : Type → Type} [Monad m] [LawfulMonad m] (hear : Signal → m Unit)
    (config : Config) (bytes : Bytes) :
    disassembleWith hear config bytes = do
      (told config bytes).forM hear
      return disassemble config bytes := by
  cases h : config.validate with
  | error e =>
    rw [disassembleWith_of_error _ _ _ h, told_of_error h, disassemble_of_error h]
    rw [List.forM_eq_forM, List.forM_nil, pure_bind]
  | ok u => rw [disassembleWith_of_ok _ _ _ h, told_of_ok h, disassemble_of_ok h]

end Chip8
