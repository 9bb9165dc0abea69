import Chip8.Instruction.Decode
import Chip8.Instruction.Text
import Chip8.Proofs.ControlFlow
import Chip8.Proofs.Form

/-!
# The forms of decoded words

Decoding and printing follow the table: a decoded word has the digits that the form of its
instruction fixes, and its text is the template of that form, filled in from the word.
-/

namespace Chip8

namespace Word

variable (w : Word)

theorem digitAt_three : w.digitAt 3 = w.lead := by
  have hlead := w.lead_lt
  rw [digitAt, lead] at *
  exact Nat.mod_eq_of_lt hlead

theorem toNat_x : w.x.toNat = w.digitAt 2 := by
  simp only [x, digitAt, UInt16.toNat_toUInt8, UInt16.toNat_mod, UInt16.toNat_div]
  change w.toNat / 256 % 16 % 256 = w.toNat / 256 % 16
  omega

theorem toNat_y : w.y.toNat = w.digitAt 1 := by
  simp only [y, digitAt, UInt16.toNat_toUInt8, UInt16.toNat_mod, UInt16.toNat_div]
  change w.toNat / 16 % 16 % 256 = w.toNat / 16 % 16
  omega

theorem toNat_nibble : w.nibble.toNat = w.digitAt 0 := by
  simp only [nibble, digitAt, UInt16.toNat_toUInt8, UInt16.toNat_mod]
  change w.toNat % 16 % 256 = w.toNat / 1 % 16
  omega

theorem toList_padded_digitAt (position : Nat) :
    (Hex.padded 1 (w.digitAt position)).toList = [Hex.digit (w.digitAt position)] := by
  have hdigit : w.digitAt position = w.toNat / 16 ^ position % 16 ^ 1 := rfl
  rw [hdigit, Hex.toList_padded_mod (by decide)]
  rfl

@[simp]
theorem toList_digit_vx : w.vx.digit.toList = [Hex.digit (w.digitAt 2)] := by
  rw [Register.digit, vx, toNat_x, toList_padded_digitAt]

@[simp]
theorem toList_digit_vy : w.vy.digit.toList = [Hex.digit (w.digitAt 1)] := by
  rw [Register.digit, vy, toNat_y, toList_padded_digitAt]

@[simp]
theorem toList_nibble : (Hex.padded 1 w.nibble.toNat).toList = [Hex.digit (w.digitAt 0)] := by
  rw [toNat_nibble, toList_padded_digitAt]

@[simp]
theorem toList_byteText : (Instruction.byteText w.byte).toList =
    [Hex.digit (w.digitAt 1), Hex.digit (w.digitAt 0)] := by
  have hbyte : w.byte.toNat = w.toNat % 16 ^ 2 := w.toNat_byte
  rw [Instruction.byteText, hbyte, Hex.toList_padded_mod (by decide)]
  simp only [Hex.fixed, digitAt, Nat.reducePow, Nat.div_one, List.nil_append, List.singleton_append]

@[simp]
theorem toList_addressText : (Instruction.addressText w.address).toList =
    [Hex.digit (w.digitAt 2), Hex.digit (w.digitAt 1), Hex.digit (w.digitAt 0)] := by
  have haddress : w.address.toNat = w.toNat % 16 ^ 3 := w.toNat_address
  rw [Instruction.addressText, haddress, Hex.toList_padded_mod (by decide)]
  simp [Hex.fixed, digitAt, Nat.div_div_eq_div_mul]

@[simp]
theorem toList_dataText : w.dataText.toList = Form.directive.template.fill w := by
  have hw : w.toNat = w.toNat % 16 ^ 4 := (Nat.mod_eq_of_lt w.toNat_lt).symm
  rw [dataText, String.toList_append, hw, Hex.toList_padded_mod (by decide)]
  simp [Form.template, Hex.fixed, digitAt, Nat.div_div_eq_div_mul]

end Word

theorem AluOp.toNat_nibble_of_ofNibble? {n : UInt8} {op : AluOp} (h : ofNibble? n = some op) :
    op.nibble.toNat = n.toNat := by
  unfold ofNibble? at h
  split at h
  case h_10 => cases h
  all_goals
    next hn =>
      cases h
      exact hn.symm

namespace Instruction

/-- What is left of an instruction without its operands. -/
def form : Instruction → Form
  | clearScreen => .clearScreen
  | subroutineReturn => .subroutineReturn
  | machineCall _ => .machineCall
  | jump _ => .jump
  | call _ => .call
  | skipEqualByte _ _ => .skipEqualByte
  | skipUnequalByte _ _ => .skipUnequalByte
  | skipEqualRegister _ _ => .skipEqualRegister
  | loadByte _ _ => .loadByte
  | addByte _ _ => .addByte
  | alu op _ _ => .alu op
  | skipUnequalRegister _ _ => .skipUnequalRegister
  | loadIndex _ => .loadIndex
  | jumpIndexed _ => .jumpIndexed
  | random _ _ => .random
  | draw _ _ _ => .draw
  | skipKeyDown _ => .skipKeyDown
  | skipKeyUp _ => .skipKeyUp
  | readDelay _ => .readDelay
  | waitKey _ => .waitKey
  | setDelay _ => .setDelay
  | setSound _ => .setSound
  | addIndex _ => .addIndex
  | fontGlyph _ => .fontGlyph
  | decimalDigits _ => .decimalDigits
  | saveRegisters _ => .saveRegisters
  | loadRegisters _ => .loadRegisters
  | unassigned _ => .directive

/-- Instructions whose text is that of their form, filled in from the word. -/
def PrintsAs (i : Instruction) (w : Word) : Prop := i.text.toList = i.form.template.fill w

theorem printsAs_unassigned (w : Word) : (unassigned w).PrintsAs w := w.toList_dataText

variable (w : Word)

theorem printsAs_decodeSystem : (decodeSystem w).PrintsAs w := by
  unfold decodeSystem
  split_ifs
  · rfl
  · rfl
  · unfold PrintsAs text form Form.template
    simp

theorem printsAs_decodeArithmetic : (decodeArithmetic w).PrintsAs w := by
  unfold decodeArithmetic
  split
  · unfold PrintsAs text form Form.template
    simp [Register.text]
  · exact printsAs_unassigned w

theorem printsAs_decodeKey : (decodeKey w).PrintsAs w := by
  unfold decodeKey
  split
  · unfold PrintsAs text form Form.template
    simp
  · unfold PrintsAs text form Form.template
    simp
  · exact printsAs_unassigned w

theorem printsAs_decodeMisc : (decodeMisc w).PrintsAs w := by
  unfold decodeMisc
  split
  case h_10 => exact printsAs_unassigned w
  all_goals
    unfold PrintsAs text form Form.template
    simp [Register.text]

/-- The text of a decoded word. -/
theorem printsAs_decode : (decode w).PrintsAs w := by
  unfold decode
  cases OpcodeClass.ofNibble w.opcode with
  | system => exact printsAs_decodeSystem w
  | arithmetic => exact printsAs_decodeArithmetic w
  | key => exact printsAs_decodeKey w
  | misc => exact printsAs_decodeMisc w
  | _ =>
    unfold PrintsAs text form Form.template
    simp [Register.text]

variable {w}

theorem fits_of_lead {f : Form} {lead : Nat} (hlead : w.lead = lead)
    (hf : f.fixed = [(3, lead)]) : f.Fits w := by
  intro entry hentry
  rw [hf, List.mem_singleton] at hentry
  rw [hentry]
  exact w.digitAt_three.trans hlead

/-- Forms that fix the first digit and the last byte. -/
theorem fits_of_low {f : Form} {lead low : Nat} (hlead : w.lead = lead) (hlow : w.low = low)
    (hf : f.fixed = [(3, lead), (1, low / 16), (0, low % 16)]) : f.Fits w := by
  intro entry hentry
  have hone : w.digitAt 1 = low / 16 := by
    simp only [Word.digitAt, Word.low] at hlow ⊢
    omega
  have hzero : w.digitAt 0 = low % 16 := by
    simp only [Word.digitAt, Word.low] at hlow ⊢
    omega
  rw [hf] at hentry
  simp only [List.mem_cons, List.not_mem_nil, or_false] at hentry
  rcases hentry with rfl | rfl | rfl
  · exact w.digitAt_three.trans hlead
  · exact hone
  · exact hzero

/-- Forms that fix all digits. -/
theorem fits_of_address {f : Form} {lead address : Nat} (hlead : w.lead = lead)
    (haddress : w.address.toNat = address)
    (hf : f.fixed = [(3, lead), (2, address / 256 % 16), (1, address / 16 % 16),
      (0, address % 16)]) : f.Fits w := by
  rw [Word.toNat_address] at haddress
  intro entry hentry
  have htwo : w.digitAt 2 = address / 256 % 16 := by
    simp only [Word.digitAt]
    omega
  have hone : w.digitAt 1 = address / 16 % 16 := by
    simp only [Word.digitAt]
    omega
  have hzero : w.digitAt 0 = address % 16 := by
    simp only [Word.digitAt]
    omega
  rw [hf] at hentry
  simp only [List.mem_cons, List.not_mem_nil, or_false] at hentry
  rcases hentry with rfl | rfl | rfl | rfl
  · exact w.digitAt_three.trans hlead
  · exact htwo
  · exact hone
  · exact hzero

theorem fits_unassigned (w : Word) : (unassigned w).form.Fits w := by
  intro entry hentry
  cases hentry

theorem fits_decodeSystem (hlead : w.lead = 0x0) : (decodeSystem w).form.Fits w := by
  unfold decodeSystem
  split_ifs with hclear hreturn
  · exact fits_of_address hlead (congrArg UInt16.toNat hclear) rfl
  · exact fits_of_address hlead (congrArg UInt16.toNat hreturn) rfl
  · exact fits_of_lead hlead rfl

theorem fits_decodeArithmetic (hlead : w.lead = 0x8) : (decodeArithmetic w).form.Fits w := by
  unfold decodeArithmetic
  split
  · next op hop =>
      intro entry hentry
      simp only [form, Form.fixed, List.mem_cons, List.not_mem_nil, or_false] at hentry
      rcases hentry with rfl | rfl
      · exact w.digitAt_three.trans hlead
      · exact w.toNat_nibble.symm.trans (AluOp.toNat_nibble_of_ofNibble? hop).symm
  · exact fits_unassigned w

theorem fits_decodeKey (hlead : w.lead = 0xE) : (decodeKey w).form.Fits w := by
  unfold decodeKey
  rw [Word.toNat_byte]
  split
  · next hlow => exact fits_of_low hlead hlow rfl
  · next hlow => exact fits_of_low hlead hlow rfl
  · exact fits_unassigned w

theorem fits_decodeMisc (hlead : w.lead = 0xF) : (decodeMisc w).form.Fits w := by
  unfold decodeMisc
  rw [Word.toNat_byte]
  split
  case h_10 => exact fits_unassigned w
  all_goals
    next hlow => exact fits_of_low hlead hlow rfl

/-- A decoded word has the digits that the form of its instruction fixes. -/
theorem fits_decode (w : Word) : (decode w).form.Fits w := by
  have hlead := w.lead_eq
  unfold decode
  cases hclass : OpcodeClass.ofNibble w.opcode with
  | system => exact fits_decodeSystem (hlead.trans (by rw [hclass]; rfl))
  | arithmetic => exact fits_decodeArithmetic (hlead.trans (by rw [hclass]; rfl))
  | key => exact fits_decodeKey (hlead.trans (by rw [hclass]; rfl))
  | misc => exact fits_decodeMisc (hlead.trans (by rw [hclass]; rfl))
  | _ => exact fits_of_lead (hlead.trans (by rw [hclass]; rfl)) rfl

end Instruction

end Chip8
