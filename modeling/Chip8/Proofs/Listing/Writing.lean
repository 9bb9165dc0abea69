import Chip8.Proofs.Alike
import Chip8.Proofs.Listing
import Chip8.Proofs.Sink
import Chip8.Proofs.Text.Lines
import Chip8.Proofs.Text.Visible

/-!
# Writing a listing

A line is visible text whatever it shows: the operands of its instruction are written in digits,
also those that no word can hold. So a listing has one line break for each line, at its end. To
write it line by line is to write its text, and where the room of a sink ends, even within a
line, the bytes stored are the beginning of that text.
-/

namespace Chip8

/-! ## Lines are visible -/

theorem Register.visible_text (r : Register) : Visible r.text := .append (by decide) (.padded _ _)

theorem AluOp.visible_mnemonic (op : AluOp) : Visible op.mnemonic := by
  cases op <;> decide

namespace Instruction

/-- An instruction is visible text, with any byte for a register and any number for an address. -/
theorem visible_text (i : Instruction) : Visible i.text := by
  have haddress : ∀ a : UInt16, Visible (addressText a) := fun a => .padded _ _
  have hbyte : ∀ b : UInt8, Visible (byteText b) := fun b => .padded _ _
  cases i with
  | clearScreen | subroutineReturn => decide
  | machineCall a =>
      have hcall : Visible ("njp " ++ addressText a) := .append (by decide) (haddress a)
      exact (hcall.append (t := " ; db 0") (by decide)).append (haddress a)
  | jump a | call a | loadIndex a => exact .append (by decide) (haddress a)
  | jumpIndexed a =>
      have hbase : Visible ("jmp [" ++ addressText a) := .append (by decide) (haddress a)
      exact hbase.append (t := " + V0]") (by decide)
  | skipEqualByte x b | skipUnequalByte x b | loadByte x b | addByte x b =>
      exact ((Visible.append (by decide) x.visible_text).append (by decide)).append (hbyte b)
  | skipEqualRegister x y | skipUnequalRegister x y =>
      exact ((Visible.append (by decide) x.visible_text).append (by decide)).append y.visible_text
  | alu op x y =>
      have hfirst : Visible (op.mnemonic ++ " " ++ x.text) :=
        (op.visible_mnemonic.append (by decide)).append x.visible_text
      exact (hfirst.append (t := ", ") (by decide)).append y.visible_text
  | random x mask =>
      have hfirst : Visible ("mov " ++ x.text ++ ", [random & ") :=
        (Visible.append (by decide) x.visible_text).append (by decide)
      exact (hfirst.append (hbyte mask)).append (t := "]") (by decide)
  | draw x y height =>
      have hfirst : Visible ("drw " ++ x.text ++ ", " ++ y.text) :=
        ((Visible.append (by decide) x.visible_text).append (by decide)).append y.visible_text
      exact (hfirst.append (t := ", ") (by decide)).append (.padded _ _)
  | skipKeyDown x | skipKeyUp x => exact .append (by decide) (.padded _ _)
  | readDelay x => exact (Visible.append (by decide) x.visible_text).append (t := ", DL") (by decide)
  | waitKey x | setDelay x | setSound x | addIndex x | fontGlyph x | decimalDigits x
  | saveRegisters x | loadRegisters x => exact .append (by decide) x.visible_text
  | unassigned w => exact .append (by decide) (.padded _ _)

end Instruction

theorem Line.visible_display (l : Line) : Visible l.display := by
  have htext : Visible l.text := by
    unfold Line.text
    split
    · exact Instruction.visible_text _
    · exact .append (by decide) (.padded _ _)
  rw [Line.display_eq]
  exact (Visible.append (.padded _ _) (by decide)).append htext

namespace Listing

theorem text_eq (l : Listing) :
    l.text = String.join (l.lines.toList.map fun line =>
      Hex.padded 3 line.address ++ ": " ++ line.text ++ "\n") := by
  simp only [text, printed, Line.display_eq]

theorem count_newline_text (l : Listing) : l.text.toList.count '\n' = l.lines.size := by
  rw [toList_text, Lines.count_flatMap]
  · simp
  · intro cs hcs
    obtain ⟨line, -, rfl⟩ := List.mem_map.mp hcs
    exact line.visible_display.newline_not_mem

/-! ## Limited room -/

/-- How many bytes the text of a listing takes. -/
def byteCount (l : Listing) : Nat := (Utf8.encode l.text).size

/-- The whole text has room in a new sink with this limit. -/
def Fits (limit : Option Nat) (l : Listing) : Prop := ∀ m ∈ limit, l.byteCount ≤ m

/-- Line by line, up to the first failure. -/
theorem run_writeLines (s : Sink) (lines : List Line) :
    (s.run fun out => writeLines out lines) =
      s.writeAll ((lines.map (·.display ++ "\n")).map Utf8.encode) := by
  induction lines generalizing s with
  | nil => rfl
  | cons line lines ih =>
    have hwrite : Sink.itself.write (Utf8.encode (line.display ++ "\n")) s =
        ((s.write (Utf8.encode (line.display ++ "\n"))).2,
          (s.write (Utf8.encode (line.display ++ "\n"))).1) := rfl
    rw [Sink.run_eq, writeLines, StateM.bind_apply, hwrite, List.map_cons, List.map_cons,
      Sink.writeAll]
    cases s.write (Utf8.encode (line.display ++ "\n")) with
    | mk s' outcome =>
      cases outcome with
      | ok u => exact ih s'
      | error e => rfl

theorem run_writeTo (l : Listing) (s : Sink) : s.run l.writeTo = s.deliver l.printed := by
  have hlines := run_writeLines s l.lines.toList
  rw [Sink.run_eq] at hlines
  rw [Sink.deliver, printed, ← hlines, Sink.run_eq, writeTo, StateM.bind_apply]
  cases writeLines Sink.itself l.lines.toList s with
  | mk outcome s' =>
    cases outcome with
    | ok u => rfl
    | error e => rfl

theorem snd_writeTo_of_neverFails (l : Listing) {s : Sink} (h : s.NeverFails) :
    (s.run l.writeTo).2 = .ok () := by
  rw [run_writeTo]
  exact h.snd_deliver l.printed

/-- Whoever has taken a listing to its end holds its text. -/
theorem stored_writeTo_of_ok {l : Listing} {s : Sink} (h : (s.run l.writeTo).2 = .ok ()) :
    (s.run l.writeTo).1.stored = s.stored ++ Utf8.encode l.text := by
  rw [run_writeTo] at h ⊢
  exact s.stored_deliver_of_ok h

/-- Writing line by line is one way to cut the text into pieces. -/
theorem writeTo_eq_deliver (l : Listing) (s : Sink) {pieces : List String}
    (h : String.join pieces = l.text) : s.run l.writeTo = s.deliver pieces := by
  rw [run_writeTo]
  exact s.deliver_congr h.symm

section

variable {σ τ : Type} {R : σ → τ → Prop} {out : Writer (StateM σ)} {out' : Writer (StateM τ)}

theorem alike_writeLines (h : Writer.Alike R out out') (lines : List Line) :
    Alike R (writeLines out lines) (writeLines out' lines) := by
  induction lines with
  | nil => exact .pure _
  | cons line lines ih =>
    refine .bind (h.write _) fun outcome => ?_
    cases outcome with
    | ok u => exact ih
    | error e => exact .pure _

/-- A listing is written alike to writers that answer alike. -/
theorem alike_writeTo (h : Writer.Alike R out out') (l : Listing) :
    Alike R (l.writeTo out) (l.writeTo out') := by
  refine .bind (alike_writeLines h l.lines.toList) fun outcome => ?_
  cases outcome with
  | ok u => exact h.flush
  | error e => exact .pure _

/-- What a writer leaves alone is what it was when the listing is written. -/
theorem keeps_writeTo {γ : Type} (part : σ → γ)
    (hwrite : ∀ chunk w, part (out.write chunk w).2 = part w)
    (hflush : ∀ w, part (out.flush w).2 = part w) (l : Listing) (w : σ) :
    part (l.writeTo out w).2 = part w := by
  have halike : Writer.Alike (fun v v' => v = v' ∧ part v = part w) out out :=
    { write := by
        rintro chunk v _ ⟨rfl, hv⟩
        exact ⟨rfl, rfl, (hwrite chunk v).trans hv⟩
      flush := by
        rintro v _ ⟨rfl, hv⟩
        exact ⟨rfl, rfl, (hflush v).trans hv⟩ }
  obtain ⟨-, -, hpart⟩ := alike_writeTo halike l w w ⟨rfl, rfl⟩
  exact hpart

end

theorem room_lt_iff {l : Listing} {s : Sink} (hnew : s.stored = #[]) :
    s.room l.byteCount < l.byteCount ↔ ¬l.Fits s.limit := by
  have hle := s.room_le l.byteCount
  rw [Fits, ← s.room_eq_iff_of_new hnew]
  omega

theorem snd_writeTo_of_fits {l : Listing} {s : Sink} (hnew : s.stored = #[])
    (h : l.Fits s.limit) : (s.run l.writeTo).2 = s.flush.2 := by
  rw [l.writeTo_eq_deliver s rfl, s.snd_deliver]
  exact if_neg fun hlt => (room_lt_iff hnew).mp hlt h

theorem snd_writeTo_of_not_fits {l : Listing} {s : Sink} (hnew : s.stored = #[])
    (h : ¬l.Fits s.limit) : (s.run l.writeTo).2 = .error s.fullError := by
  rw [l.writeTo_eq_deliver s rfl, s.snd_deliver]
  exact if_pos ((room_lt_iff hnew).mpr h)

/-- Writing a listing agrees with its text on every new sink, whatever the addresses, words and
instructions of its lines are. The text has one line break for each line, at its end. The sink
holds the beginning of the text, cut at its limit. Writing ends well exactly if the text has room
and the flush succeeds. If there is no room, it ends with the error of the first write that
failed, which is the one of the sink, or that nothing was written if the sink just takes nothing,
and the sink is not flushed, even if that would fail too. If there is room, the sink is flushed
once, and the writing ends with the error of the flush if it has one. In which pieces the text is
written makes no difference. -/
theorem writeTo_agrees_with_text (l : Listing) (s : Sink) (hnew : s.stored = #[]) :
    (l.text = String.join (l.lines.toList.map fun line =>
        Hex.padded 3 line.address ++ ": " ++ line.text ++ "\n") ∧
      (∀ line ∈ l.lines, '\n' ∉ (Hex.padded 3 line.address ++ ": " ++ line.text).toList) ∧
      l.text.toList.count '\n' = l.lines.size) ∧
    (s.run l.writeTo).1.stored =
      (Utf8.encode l.text).take (s.limit.elim l.byteCount (min · l.byteCount)) ∧
    ((s.run l.writeTo).2 = .ok () ↔ l.Fits s.limit ∧ s.flushError = none) ∧
    (¬l.Fits s.limit →
      (∀ e, s.whenFull = .fails e → (s.run l.writeTo).2 = .error e) ∧
      (s.whenFull = .takesNothing → (s.run l.writeTo).2 = .error .nothingWritten) ∧
      (s.run l.writeTo).1.flushes = s.flushes) ∧
    (l.Fits s.limit →
      (∀ e, s.flushError = some e → (s.run l.writeTo).2 = .error e) ∧
      (s.run l.writeTo).1.flushes = s.flushes + 1) ∧
    ∀ pieces : List String, String.join pieces = l.text → s.deliver pieces = s.run l.writeTo := by
  have hflushes := s.flushes_deliver l.printed
  rw [← run_writeTo] at hflushes
  have hline : ∀ line ∈ l.lines, '\n' ∉ (Hex.padded 3 line.address ++ ": " ++ line.text).toList := by
    intro line _
    rw [← line.display_eq]
    exact line.visible_display.newline_not_mem
  refine ⟨⟨l.text_eq, hline, l.count_newline_text⟩,
    ?_, ?_, ?_, ?_, fun pieces h => (l.writeTo_eq_deliver s h).symm⟩
  · rw [l.writeTo_eq_deliver s rfl, s.stored_deliver, hnew, Array.empty_append, s.room_of_new hnew]
    rfl
  · by_cases h : l.Fits s.limit
    · rw [snd_writeTo_of_fits hnew h]
      cases he : s.flushError with
      | none => simp [Sink.flush, he, h]
      | some e => simp [Sink.flush, he]
    · rw [snd_writeTo_of_not_fits hnew h]
      simp [h]
  · intro h
    rw [snd_writeTo_of_not_fits hnew h]
    refine ⟨?_, ?_, hflushes.trans (if_pos ((room_lt_iff hnew).mpr h))⟩
    · intro e he
      simp only [Sink.fullError, he]
    · intro he
      simp only [Sink.fullError, he]
  · intro h
    rw [snd_writeTo_of_fits hnew h]
    refine ⟨?_, hflushes.trans (if_neg fun hlt => (room_lt_iff hnew).mp hlt h)⟩
    intro e he
    simp only [Sink.flush, he]

/-- The last address that a line can have, and a register that no word names. -/
def unusual : Listing where
  lines := #[⟨0xFFFFFFFFFFFFFFFF, 0x00E0, .code .clearScreen⟩,
    ⟨0x202, 0x00E0, .code (.skipKeyDown ⟨255⟩)⟩]

/-- A sink that ends in the second line of this listing, and whose flush fails. -/
def tight : Sink where
  limit := some 32
  whenFull := .fails (.described .storageFull "disk full")
  flushError := some (.described .other "flush failed")

/-- Half of the register is stored, and the error is that of the write. -/
theorem writeTo_agrees_with_text_within_register :
    tight.stored = #[] ∧ ¬unusual.Fits tight.limit ∧
      unusual.text = "FFFFFFFFFFFFFFFF: clr\n202: skd FF\n" ∧
      (tight.run unusual.writeTo).1.stored = Utf8.encode "FFFFFFFFFFFFFFFF: clr\n202: skd F" ∧
      (tight.run unusual.writeTo).2 = .error (.described .storageFull "disk full") ∧
      (tight.run unusual.writeTo).1.flushes = 0 := by
  have hfull : ¬unusual.Fits tight.limit := by
    intro h
    exact absurd (h 32 rfl) (by decide +kernel)
  obtain ⟨-, hstored, -, hends, -⟩ := writeTo_agrees_with_text unusual tight rfl
  obtain ⟨herror, -, hflushes⟩ := hends hfull
  refine ⟨rfl, hfull, ?_, hstored.trans ?_, herror _ rfl, hflushes⟩
  · decide +kernel
  · decide +kernel

end Listing

end Chip8
