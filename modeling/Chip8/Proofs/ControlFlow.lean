import Chip8.Reachability
import Mathlib.Tactic.IntervalCases

/-!
# The control flow of plain words

Where control can go from a word, read off the number that the word is: its
leading nibble, its low byte and the twelve bits of its address. No instruction is
mentioned, and the order is the one in which the analysis explores. Decoding a
word and asking the instruction for its successors gives the same list.
-/

namespace Chip8

namespace Word

/-- The nibble that selects the class of the opcode. -/
def lead (w : Word) : Nat := w.toNat / 0x1000

def low (w : Word) : Nat := w.toNat % 0x100

/-- The index of the word that contains the address of a transfer. The division
rounds down, also below the load address. -/
def target (w : Word) (load : UInt16) : Int :=
  ((w.toNat % 0x1000 : Nat) - (load.toNat : Int)) / 2

def IsSkip (w : Word) : Prop :=
  w.lead ∈ [0x3, 0x4, 0x5, 0x9] ∨ w.lead = 0xE ∧ w.low ∈ [0x9E, 0xA1]

instance (w : Word) : Decidable w.IsSkip := inferInstanceAs (Decidable (_ ∨ _))

/-- The indices where control can go from the word at the index `i`. -/
def exits (w : Word) (load : UInt16) (i : Nat) : List Int :=
  if w.lead = 0x1 then [w.target load]
  else if w.lead = 0x2 then [w.target load, i + 1]
  else if w.IsSkip then [i + 1, i + 2]
  else if w.lead = 0xB then (List.range 128).map fun k : Nat => w.target load + k
  else [i + 1]

theorem mem_exits_of_isSkip {w : Word} {load : UInt16} {i : Nat} {c : Int} (h : w.IsSkip)
    (hc : c = i + 1 ∨ c = i + 2) : c ∈ w.exits load i := by
  have hjump : w.lead ≠ 0x1 := by
    rintro hlead
    simp [IsSkip, hlead] at h
  have hcall : w.lead ≠ 0x2 := by
    rintro hlead
    simp [IsSkip, hlead] at h
  rw [exits, if_neg hjump, if_neg hcall, if_pos h]
  simpa using hc

theorem exits_of_indexed {w : Word} (h : w.lead = 0xB) (load : UInt16) (i : Nat) :
    w.exits load i = (List.range 128).map fun k : Nat => w.target load + k := by
  simp [exits, IsSkip, h]

theorem mem_exits_of_indexed {w : Word} (h : w.lead = 0xB) {load : UInt16} {i k : Nat}
    (hk : k < 128) : w.target load + k ∈ w.exits load i := by
  rw [exits_of_indexed h]
  exact List.mem_map.mpr ⟨k, List.mem_range.mpr hk, rfl⟩

theorem toNat_opcode (w : Word) : w.opcode.toNat = w.lead := by
  have hw : w.toNat < 65536 := w.toNat_lt
  simp only [opcode, lead, UInt16.toNat_toUInt8, UInt16.toNat_div]
  change w.toNat / 4096 % 256 = w.toNat / 4096
  omega

theorem toNat_byte (w : Word) : w.byte.toNat = w.low := by
  simp [byte, low]

theorem lead_lt (w : Word) : w.lead < 16 := by
  have hw : w.toNat < 65536 := w.toNat_lt
  unfold lead
  omega

theorem toIndex_address (w : Word) (load : UInt16) :
    Address.toIndex load w.address = w.target load := by
  rw [Address.toIndex, toNat_address, target]

end Word

theorem OpcodeClass.toNat_nibble_ofNibble (n : UInt8) :
    (ofNibble n).nibble.toNat = n.toNat % 16 := by
  have hmod : (n % 16).toNat = n.toNat % 16 := by simp
  have hlt : n.toNat % 16 < 16 := Nat.mod_lt _ (by omega)
  unfold ofNibble
  rw [hmod]
  interval_cases n.toNat % 16 <;> rfl

/-- The class of a word and its leading nibble are the same information. -/
theorem Word.lead_eq (w : Word) : w.lead = (OpcodeClass.ofNibble w.opcode).nibble.toNat := by
  rw [OpcodeClass.toNat_nibble_ofNibble, Word.toNat_opcode, Nat.mod_eq_of_lt w.lead_lt]

namespace Instruction

theorem flow_decodeSystem (w : Word) : (decodeSystem w).flow = .next := by
  unfold decodeSystem
  split_ifs <;> rfl

theorem flow_decodeArithmetic (w : Word) : (decodeArithmetic w).flow = .next := by
  unfold decodeArithmetic
  split <;> rfl

theorem flow_decodeMisc (w : Word) : (decodeMisc w).flow = .next := by
  unfold decodeMisc
  split <;> rfl

theorem flow_decodeKey (w : Word) :
    (decodeKey w).flow = if w.low ∈ [0x9E, 0xA1] then .skip else .next := by
  unfold decodeKey
  rw [Word.toNat_byte]
  split
  · next h => simp [h, flow]
  · next h => simp [h, flow]
  · next h h' =>
      have hout : w.low ∉ [0x9E, 0xA1] := by
        rw [List.mem_cons, List.mem_singleton]
        rintro (heq | heq)
        · exact h heq
        · exact h' heq
      rw [if_neg hout]
      rfl

/-- The flow of a decoded word, read off the word. -/
theorem flow_decode (w : Word) :
    (decode w).flow =
      if w.lead = 0x1 then .jump w.address
      else if w.lead = 0x2 then .call w.address
      else if w.IsSkip then .skip
      else if w.lead = 0xB then .indexedJump w.address
      else .next := by
  have hlead := w.lead_eq
  unfold decode
  cases hclass : OpcodeClass.ofNibble w.opcode with
  | system => simp [hlead, hclass, Word.IsSkip, OpcodeClass.nibble, flow_decodeSystem]
  | arithmetic => simp [hlead, hclass, Word.IsSkip, OpcodeClass.nibble, flow_decodeArithmetic]
  | key => simp [hlead, hclass, Word.IsSkip, OpcodeClass.nibble, flow_decodeKey]
  | misc => simp [hlead, hclass, Word.IsSkip, OpcodeClass.nibble, flow_decodeMisc]
  | _ => simp [hlead, hclass, Word.IsSkip, OpcodeClass.nibble, flow]

end Instruction

namespace Successors

theorem toList_of_decode (w : Word) (load : UInt16) (i : Nat) :
    (of (Instruction.decode w) i load).toList = w.exits load i := by
  unfold of Word.exits
  rw [Instruction.flow_decode]
  split_ifs with hjump hcall hskip hindexed
  · simp [toList, w.toIndex_address]
  · simp [toList, w.toIndex_address]
  · rfl
  · simp [toList, w.toIndex_address, indexedJumpSpan]
  · rfl

end Successors

namespace Reachability

theorem successors_eq_exits {words : Array Word} {i : Nat} {w : Word} (hw : words[i]? = some w)
    (load : UInt16) : successors words load i = w.exits load i := by
  rw [successors, hw]
  exact Successors.toList_of_decode w load i

theorem mem_successors_iff {words : Array Word} {load : UInt16} {i : Nat} {c : Int} :
    c ∈ successors words load i ↔ ∃ w, words[i]? = some w ∧ c ∈ w.exits load i := by
  constructor
  · intro h
    cases hw : words[i]? with
    | none =>
        rw [successors, hw] at h
        cases h
    | some w =>
        rw [successors_eq_exits hw] at h
        exact ⟨w, rfl, h⟩
  · rintro ⟨w, hw, h⟩
    rw [successors_eq_exits hw]
    exact h

end Reachability

end Chip8
