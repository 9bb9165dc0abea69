import Chip8.Proofs.Disassembly
import Chip8.Proofs.Report
import Chip8.Proofs.Text.Lines
import Chip8.Proofs.Text.Visible

/-!
# What a report keeps

The text of a report is split into its lines. The second one gives the number of words, and
with it the place of every other line. A line about a word gives back its address, all of
the word, where a listing may hide a digit, and the mark; the last line gives back the byte
that was left over. So the report of a program determines the program.
-/

namespace Chip8

theorem Utf8.encode_inj {s t : String} (h : encode s = encode t) : s = t :=
  String.toByteArray_inj.mp (ByteArray.ext h)

namespace Report

/-! ## Lines of a report -/

/-- A line of a report is visible text and its end. -/
theorem Event.exists_visible (e : Event) : ∃ s, Visible s ∧ e.line = s ++ "\n" := by
  cases e with
  | analysisStarted words =>
      have hend : "Analysing reachability...\n" = "Analysing reachability..." ++ "\n" := by decide
      exact ⟨_, by decide, hend⟩
  | analysisFinished reachable total =>
      have hend : " words reachable. Result:\n" = " words reachable. Result:" ++ "\n" := by decide
      have hcount : Visible ("ANALYSIS DONE! " ++ toString reachable) := .append (by decide) (.nat _)
      have htotal := (hcount.append (t := " of ") (by decide)).append (.nat total)
      refine ⟨_, htotal.append (t := " words reachable. Result:") (by decide), ?_⟩
      show "ANALYSIS DONE! " ++ toString reachable ++ " of " ++ toString total ++
        " words reachable. Result:\n" = _
      rw [hend, ← String.append_assoc]
  | classified index address word reachable =>
      have haddress : Visible (Hex.padded 3 address ++ ": ") := .append (.padded _ _) (by decide)
      have hword := haddress.append (.padded 4 word.toNat)
      cases reachable with
      | true =>
          have hend : " reachable\n" = " reachable" ++ "\n" := by decide
          refine ⟨_, hword.append (t := " reachable") (by decide), ?_⟩
          show Hex.padded 3 address ++ ": " ++ Hex.padded 4 word.toNat ++ " reachable\n" = _
          rw [hend, ← String.append_assoc]
      | false =>
          have hend : " unreachable\n" = " unreachable" ++ "\n" := by decide
          refine ⟨_, hword.append (t := " unreachable") (by decide), ?_⟩
          show Hex.padded 3 address ++ ": " ++ Hex.padded 4 word.toNat ++ " unreachable\n" = _
          rw [hend, ← String.append_assoc]
  | trailingByte byte =>
      have hend : " ignored\n" = " ignored" ++ "\n" := by decide
      have hbyte : Visible ("trailing byte " ++ Hex.padded 2 byte.toNat) :=
        .append (by decide) (.padded _ _)
      refine ⟨_, hbyte.append (t := " ignored") (by decide), ?_⟩
      show "trailing byte " ++ Hex.padded 2 byte.toNat ++ " ignored\n" = _
      rw [hend, ← String.append_assoc]

/-- The line of an event without its end. -/
def Event.body (e : Event) : List Char := e.line.toList.dropLast

theorem Event.line_eq (e : Event) : e.line = String.ofList (e.body ++ ['\n']) := by
  obtain ⟨s, -, hline⟩ := e.exists_visible
  rw [← String.toList_inj, String.toList_ofList, body, hline, String.toList_append]
  exact congrArg (· ++ ['\n']) List.dropLast_concat.symm

theorem Event.newline_not_mem_body (e : Event) : '\n' ∉ e.body := by
  obtain ⟨s, hs, hline⟩ := e.exists_visible
  have hbody : e.body = s.toList := by
    rw [body, hline, String.toList_append]
    exact List.dropLast_concat
  rw [hbody]
  exact hs.newline_not_mem

/-- A sink without end holds the whole text. -/
theorem text_eq_of_stored_eq {events events' : List Event}
    (h : (Printer.printAll { sink := .unlimited } events).sink.stored =
      (Printer.printAll { sink := .unlimited } events').sink.stored) :
    text events = text events' := by
  have hstored : ∀ events, (Printer.printAll { sink := .unlimited } events).sink.stored =
      Utf8.encode (text events) := by
    intro events
    rw [Printer.stored_printAll]
    simp [Sink.unlimited, Sink.room, size]
  rw [hstored, hstored] at h
  exact Utf8.encode_inj h

/-- The text of a report determines its lines. -/
theorem map_line_eq_of_text_eq {events events' : List Event} (h : text events = text events') :
    events.map Event.line = events'.map Event.line := by
  have hsplit : ∀ events : List Event,
      (text events).toList = (events.map Event.body).flatMap (· ++ ['\n']) := by
    intro events
    simp only [text, String.toList_join, List.flatMap_map, Event.line_eq, String.toList_ofList]
  have hnewline : ∀ events : List Event, ∀ l ∈ events.map Event.body, '\n' ∉ l := by
    intro events l hl
    obtain ⟨e, -, rfl⟩ := List.mem_map.mp hl
    exact e.newline_not_mem_body
  rw [← String.toList_inj, hsplit, hsplit] at h
  have hbodies := Lines.eq_of_flatMap_eq (hnewline events) (hnewline events') h
  have hlines := congrArg (List.map fun body => String.ofList (body ++ ['\n'])) hbodies
  simp only [List.map_map, Function.comp_def, ← Event.line_eq] at hlines
  exact hlines

/-! ## What a line keeps -/

/-- Written counts are read back by their digits. -/
theorem toString_inj {m n : Nat} (h : (toString m).toList = (toString n).toList) : m = n := by
  rw [Nat.toString_eq_repr, Nat.toString_eq_repr, Nat.toList_repr, Nat.toList_repr] at h
  have hvalue := congrArg (fun digits => Nat.ofDigitChars 10 digits 0) h
  simp only [Nat.ofDigitChars_toDigits (b := 10) (by decide) (by decide)] at hvalue
  exact hvalue

theorem space_not_mem_toString (n : Nat) : ' ' ∉ (toString n).toList := by
  intro h
  rw [Nat.toString_eq_repr, Nat.toList_repr] at h
  exact absurd (Nat.isDigit_of_mem_toDigits (by decide) (by decide) h) (by decide)

theorem toList_line_analysisFinished (reachable total : Nat) :
    (Event.analysisFinished reachable total).line.toList =
      "ANALYSIS DONE! ".toList ++ ((toString reachable).toList ++ ' ' :: ("of ".toList ++
        ((toString total).toList ++ ' ' :: "words reachable. Result:\n".toList))) := by
  have hof : " of ".toList = ' ' :: "of ".toList := by decide
  have hend : " words reachable. Result:\n".toList = ' ' :: "words reachable. Result:\n".toList := by
    decide
  show ("ANALYSIS DONE! " ++ toString reachable ++ " of " ++ toString total ++
    " words reachable. Result:\n").toList = _
  simp only [String.toList_append, hof, hend, List.append_assoc, List.cons_append]

/-- Both counts can be told from the line, since a space ends each of them. -/
theorem analysisFinished_line_inj {reachable reachable' total total' : Nat}
    (h : (Event.analysisFinished reachable total).line =
      (Event.analysisFinished reachable' total').line) :
    reachable = reachable' ∧ total = total' := by
  rw [← String.toList_inj, toList_line_analysisFinished, toList_line_analysisFinished] at h
  obtain ⟨hreachable, hrest⟩ := Lines.append_cons_inj (space_not_mem_toString _)
    (space_not_mem_toString _) (List.append_cancel_left h)
  obtain ⟨htotal, -⟩ := Lines.append_cons_inj (space_not_mem_toString _)
    (space_not_mem_toString _) (List.append_cancel_left hrest)
  exact ⟨toString_inj hreachable, toString_inj htotal⟩

/-- What a line says about a word behind the word itself. -/
def flagText (reachable : Bool) : List Char :=
  (if reachable then "reachable\n" else "unreachable\n").toList

theorem toList_line_classified (index address : Nat) (word : Word) (reachable : Bool) :
    (Event.classified index address word reachable).line.toList =
      (Hex.padded 3 address).toList ++ ':' :: ' ' ::
        ((Hex.padded 4 word.toNat).toList ++ ' ' :: flagText reachable) := by
  have hcolon : ": ".toList = [':', ' '] := by decide
  have hflag : (if reachable then " reachable\n" else " unreachable\n").toList =
      ' ' :: flagText reachable := by
    cases reachable with
    | true => decide
    | false => decide
  show (Hex.padded 3 address ++ ": " ++ Hex.padded 4 word.toNat ++
    (if reachable then " reachable\n" else " unreachable\n")).toList = _
  simp only [String.toList_append, hcolon, hflag, List.append_assoc, List.cons_append,
    List.nil_append]

/-- A colon ends the address, however wide it is, and a space ends the word. One flag is the
end of the other, but both begin behind the space. -/
theorem classified_line_inj {index index' address address' : Nat} {word word' : Word}
    {reachable reachable' : Bool}
    (h : (Event.classified index address word reachable).line =
      (Event.classified index' address' word' reachable').line) :
    address = address' ∧ word = word' ∧ reachable = reachable' := by
  have hcolon : ∀ n, ':' ∉ (Hex.padded 3 n).toList := Hex.not_mem_padded (by decide) 3
  have hspace : ∀ n, ' ' ∉ (Hex.padded 4 n).toList := Hex.not_mem_padded (by decide) 4
  have hflags : ∀ a b, flagText a = flagText b → a = b := by decide
  rw [← String.toList_inj, toList_line_classified, toList_line_classified] at h
  obtain ⟨haddress, hrest⟩ := Lines.append_cons_inj (hcolon _) (hcolon _) h
  obtain ⟨hword, hflag⟩ := Lines.append_cons_inj (hspace _) (hspace _) (List.cons.inj hrest).2
  exact ⟨Hex.padded_inj (String.toList_inj.mp haddress),
    UInt16.toNat_inj.mp (Hex.padded_inj (String.toList_inj.mp hword)), hflags _ _ hflag⟩

theorem trailingByte_line_inj {byte byte' : UInt8}
    (h : (Event.trailingByte byte).line = (Event.trailingByte byte').line) : byte = byte' := by
  replace h : "trailing byte " ++ Hex.padded 2 byte.toNat ++ " ignored\n" =
    "trailing byte " ++ Hex.padded 2 byte'.toNat ++ " ignored\n" := h
  rw [← String.toList_inj] at h
  simp only [String.toList_append] at h
  have hbyte := List.append_cancel_left (List.append_cancel_right h)
  exact UInt8.toNat_inj.mp (Hex.padded_inj (String.toList_inj.mp hbyte))

end Report

namespace Disassembly

variable {config config' : Config} {bytes bytes' : Bytes}

/-- What the lines of a report say about the number of words. -/
theorem size_eq_of_lines_eq
    (h : (ofImage config (.ofBytes bytes)).events.map Report.Event.line =
      (ofImage config' (.ofBytes bytes')).events.map Report.Event.line) :
    bytes.size / 2 = bytes'.size / 2 := by
  rw [events_ofBytes, events_ofBytes] at h
  simp only [List.map_append, List.map_cons, List.cons_append] at h
  obtain ⟨-, hrest⟩ := List.cons.inj h
  obtain ⟨hfinished, -⟩ := List.cons.inj hrest
  exact (Report.analysisFinished_line_inj hfinished).2

/-- The lines behind the counts: one for each word, and one for a byte that is left over. -/
theorem words_eq_of_lines_eq
    (h : (ofImage config (.ofBytes bytes)).events.map Report.Event.line =
      (ofImage config' (.ofBytes bytes')).events.map Report.Event.line) :
    (∀ i < bytes.size / 2,
      config.load.toNat + 2 * i = config'.load.toNat + 2 * i ∧
      Image.wordIn bytes i = Image.wordIn bytes' i ∧
      (ofImage config (.ofBytes bytes)).reachability.isReached i =
        (ofImage config' (.ofBytes bytes')).reachability.isReached i) ∧
    Image.unpaired bytes = Image.unpaired bytes' := by
  have hsize := size_eq_of_lines_eq h
  rw [events_ofBytes, events_ofBytes, ← hsize] at h
  simp only [List.map_append, List.map_map] at h
  -- the parts of both reports are equally long, so they are compared one by one
  obtain ⟨hfront, htrailing⟩ := List.append_inj h (by simp)
  obtain ⟨-, hwords⟩ := List.append_inj hfront (by simp only [List.length_map, List.length_cons])
  constructor
  · intro i hi
    have hline := List.map_inj_left.mp hwords i (List.mem_range.mpr hi)
    exact Report.classified_line_inj hline
  · exact List.map_injective_iff.mpr (fun _ _ => Report.trailingByte_line_inj) htrailing

/-- The report of a program loses nothing. Let two disassemblies have the same report, as it
is printed to a sink without limit. Then their bytes are the same, also a byte that was left
over and the digits that a listing hides, the same words are marked, and the load addresses
are equal unless there are no words. -/
theorem eq_of_printed_report_eq {d d' : Disassembly} (hd : disassemble config bytes = .ok d)
    (hd' : disassemble config' bytes' = .ok d')
    (hreport :
      (Report.Printer.printAll { sink := .unlimited } (Signal.events (told config bytes))).sink.stored =
      (Report.Printer.printAll { sink := .unlimited }
        (Signal.events (told config' bytes'))).sink.stored) :
    bytes = bytes' ∧ d.reachability.reached = d'.reachability.reached ∧
      (0 < d.image.size → config.load = config'.load) := by
  obtain ⟨hvalid, rfl⟩ := eq_of_disassemble hd
  obtain ⟨hvalid', rfl⟩ := eq_of_disassemble hd'
  rw [told_of_ok hvalid, told_of_ok hvalid', events_signals, events_signals] at hreport
  have hlines := Report.map_line_eq_of_text_eq (Report.text_eq_of_stored_eq hreport)
  have hsize := size_eq_of_lines_eq hlines
  obtain ⟨hwords, htrailing⟩ := words_eq_of_lines_eq hlines
  refine ⟨?_, ?_, ?_⟩
  · exact Image.eq_of_words_eq hsize (fun i hi => (hwords i hi).2.1) htrailing
  · rw [← Array.toList_inj, Reachability.toList_reached, Reachability.toList_reached,
      size_reachability, size_reachability, Image.size_ofBytes, Image.size_ofBytes, ← hsize]
    exact List.map_congr_left fun i hi => (hwords i (List.mem_range.mp hi)).2.2
  · intro hpos
    have hzero : 0 < bytes.size / 2 := Image.size_ofBytes bytes ▸ hpos
    exact UInt16.toNat_inj.mp (hwords 0 hzero).1

/-- Two jumps that lead to each other and a byte behind them, entered at either jump. The
report is the same, and so are the marks, although the words are visited in another order. -/
theorem eq_of_printed_report_eq_two_entries :
    ∃ d d', disassemble {} #[0x12, 0x02, 0x12, 0x00, 0x07] = .ok d ∧
      disassemble { entry := 1 } #[0x12, 0x02, 0x12, 0x00, 0x07] = .ok d' ∧
      (Report.Printer.printAll { sink := .unlimited }
          (Signal.events (told {} #[0x12, 0x02, 0x12, 0x00, 0x07]))).sink.stored =
        (Report.Printer.printAll { sink := .unlimited }
          (Signal.events (told { entry := 1 } #[0x12, 0x02, 0x12, 0x00, 0x07]))).sink.stored ∧
      d.reachability.reached = d'.reachability.reached ∧
      d.reachability.order ≠ d'.reachability.order := by
  have hvalid : ({} : Config).validate = .ok () := by decide
  have hvalid' : ({ entry := 1 } : Config).validate = .ok () := by decide
  have hd := disassemble_of_ok hvalid #[0x12, 0x02, 0x12, 0x00, 0x07]
  have hd' := disassemble_of_ok hvalid' #[0x12, 0x02, 0x12, 0x00, 0x07]
  have hevents : Signal.events (told {} #[0x12, 0x02, 0x12, 0x00, 0x07]) =
      Signal.events (told { entry := 1 } #[0x12, 0x02, 0x12, 0x00, 0x07]) := by
    decide +kernel
  have hreport := congrArg (fun events =>
    (Report.Printer.printAll { sink := .unlimited } events).sink.stored) hevents
  obtain ⟨-, hreached, -⟩ := eq_of_printed_report_eq hd hd' hreport
  exact ⟨_, _, hd, hd', hreport, hreached, by decide +kernel⟩

end Disassembly

end Chip8
