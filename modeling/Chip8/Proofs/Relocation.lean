import Chip8.Proofs.Listing
import Chip8.Proofs.Reachability

/-!
# Relocation

An image can be moved to another load address if the addresses that its jumps and calls
lead to are moved along. Each transfer then goes to the word that it went to before, also
when the distance is odd or the word lies below the load address, and so the analysis of
the moved image is the analysis of the image itself. Addresses that no control flow depends
on, such as the one of `ANNN`, stay as they are.
-/

namespace Chip8

/-! ## Moving words -/

/-- The address that lies a distance away, if there is one. -/
def Address.moved (distance : Int) (address : UInt16) : UInt16 :=
  UInt16.ofNat ((address.toNat : Int) + distance).toNat

theorem Address.toNat_moved {distance : Int} {address : UInt16}
    (hlow : 0 ≤ (address.toNat : Int) + distance)
    (hhigh : (address.toNat : Int) + distance < 65536) :
    ((moved distance address).toNat : Int) = address.toNat + distance := by
  rw [moved, UInt16.toNat_ofNat_of_lt' (by change _ < 65536; omega)]
  omega

namespace Word

/-- The word jumps to its address, calls it, or jumps to a place counted from it. -/
def IsTransfer (w : Word) : Prop := w.lead ∈ [0x1, 0x2, 0xB]

instance (w : Word) : Decidable w.IsTransfer := inferInstanceAs (Decidable (_ ∈ _))

/-- The word with the address of its transfer, if it is one, moved by a distance. -/
def relocate (distance : Int) (w : Word) : Word :=
  if w.IsTransfer then UInt16.ofNat (0x1000 * w.lead) + Address.moved distance w.address else w

/-- The moved address still is one of twelve bits. -/
def Relocatable (distance : Int) (w : Word) : Prop :=
  w.IsTransfer → 0 ≤ (w.address.toNat : Int) + distance ∧
    (w.address.toNat : Int) + distance ≤ 0xFFF

variable {w w' : Word} {distance : Int} {load load' : UInt16}

theorem relocate_of_not_isTransfer (h : ¬w.IsTransfer) : w.relocate distance = w := if_neg h

theorem toNat_relocate (ht : w.IsTransfer) (h : w.Relocatable distance) :
    ((w.relocate distance).toNat : Int) = 0x1000 * w.lead + (w.address.toNat + distance) := by
  obtain ⟨hlow, hhigh⟩ := h ht
  have hmoved := Address.toNat_moved hlow (by omega)
  have hlead := w.lead_lt
  rw [relocate, if_pos ht, UInt16.toNat_add, UInt16.toNat_ofNat_of_lt' (by change _ < 65536; omega),
    Nat.mod_eq_of_lt (by omega)]
  omega

theorem lead_relocate (h : w.Relocatable distance) : (w.relocate distance).lead = w.lead := by
  by_cases ht : w.IsTransfer
  · have hnat := toNat_relocate ht h
    obtain ⟨hlow, hhigh⟩ := h ht
    rw [lead]
    omega
  · rw [relocate_of_not_isTransfer ht]

theorem address_relocate (ht : w.IsTransfer) (h : w.Relocatable distance) :
    (w.relocate distance).address = Address.moved distance w.address := by
  have hnat := toNat_relocate ht h
  obtain ⟨hlow, hhigh⟩ := h ht
  have hmoved := Address.toNat_moved hlow (by omega)
  rw [← UInt16.toNat_inj, toNat_address]
  omega

theorem isTransfer_relocate_iff (h : w.Relocatable distance) :
    (w.relocate distance).IsTransfer ↔ w.IsTransfer := by
  rw [IsTransfer, lead_relocate h, IsTransfer]

theorem IsTransfer.not_isSkip (h : w.IsTransfer) : ¬w.IsSkip := by
  simp only [IsTransfer, List.mem_cons, List.not_mem_nil, or_false] at h
  simp only [IsSkip, List.mem_cons, List.not_mem_nil, or_false]
  omega

theorem isSkip_relocate_iff (h : w.Relocatable distance) :
    (w.relocate distance).IsSkip ↔ w.IsSkip := by
  by_cases ht : w.IsTransfer
  · exact iff_of_false ((isTransfer_relocate_iff h).mpr ht).not_isSkip ht.not_isSkip
  · rw [relocate_of_not_isTransfer ht]

/-- Where a transfer goes is counted in bytes from the load address before it is rounded,
so no distance makes a difference. -/
theorem target_relocate (ht : w.IsTransfer) (h : w.Relocatable distance)
    (hload : (load'.toNat : Int) = load.toNat + distance) :
    (w.relocate distance).target load' = w.target load := by
  obtain ⟨hlow, hhigh⟩ := h ht
  have hmoved := Address.toNat_moved hlow (by omega)
  rw [← toIndex_address, ← toIndex_address, address_relocate ht h, Address.toIndex,
    Address.toIndex, hmoved, hload]
  congr 1
  omega

/-- What the exits of a word depend on. -/
theorem exits_congr (hlead : w.lead = w'.lead) (hskip : w.IsSkip ↔ w'.IsSkip)
    (htarget : w.IsTransfer → w.target load = w'.target load') (i : Nat) :
    w.exits load i = w'.exits load' i := by
  by_cases ht : w.IsTransfer
  · simp only [exits, hlead, hskip, htarget ht]
  · have hother : w'.lead ≠ 0x1 ∧ w'.lead ≠ 0x2 ∧ w'.lead ≠ 0xB := by
      rw [IsTransfer, hlead] at ht
      simpa using ht
    simp only [exits, hlead, hskip, hother, if_false]

theorem exits_relocate (h : w.Relocatable distance)
    (hload : (load'.toNat : Int) = load.toNat + distance) (i : Nat) :
    (w.relocate distance).exits load' i = w.exits load i :=
  (exits_congr (lead_relocate h).symm (isSkip_relocate_iff h).symm
    (fun ht => (target_relocate ht h hload).symm) i).symm

end Word

/-! ## Moving instructions and lines -/

namespace Instruction

/-- The instruction with the address of its transfer moved. -/
def relocate (distance : Int) : Instruction → Instruction
  | jump a => jump (Address.moved distance a)
  | call a => call (Address.moved distance a)
  | jumpIndexed a => jumpIndexed (Address.moved distance a)
  | other => other

theorem relocate_of_flow {instruction : Instruction}
    (h : instruction.flow = .next ∨ instruction.flow = .skip) (distance : Int) :
    instruction.relocate distance = instruction := by
  cases instruction <;> simp_all [flow, relocate]

/-- Decoding a moved word gives the moved instruction. -/
theorem decode_relocate {w : Word} {distance : Int} (h : w.Relocatable distance) :
    decode (w.relocate distance) = (decode w).relocate distance := by
  by_cases ht : w.IsTransfer
  · have hopcode : (w.relocate distance).opcode = w.opcode := by
      rw [← UInt8.toNat_inj, Word.toNat_opcode, Word.toNat_opcode, Word.lead_relocate h]
    have haddress := Word.address_relocate ht h
    rw [Word.IsTransfer, w.lead_eq] at ht
    unfold decode
    rw [hopcode]
    cases hclass : OpcodeClass.ofNibble w.opcode with
    | jump => exact congrArg jump haddress
    | call => exact congrArg call haddress
    | jumpIndexed => exact congrArg jumpIndexed haddress
    | _ => simp [hclass, OpcodeClass.nibble] at ht
  · -- the instruction of any other word holds no address that it goes to
    rw [Word.relocate_of_not_isTransfer ht, relocate_of_flow]
    rw [Word.IsTransfer] at ht
    rw [flow_decode]
    split_ifs <;> simp_all

end Instruction

def LineKind.relocate (distance : Int) : LineKind → LineKind
  | code instruction => code (instruction.relocate distance)
  | data => data

/-! ## Moving images -/

namespace Reachability

variable {words : Array Word} {load load' : UInt16} {distance : Int}

theorem successors_map_relocate (hwords : ∀ w ∈ words, w.Relocatable distance)
    (hload : (load'.toNat : Int) = load.toNat + distance) :
    successors (words.map (Word.relocate distance)) load' = successors words load := by
  funext i
  cases hw : words[i]? with
  | none => simp [successors, hw]
  | some w =>
      have hmoved : (words.map (Word.relocate distance))[i]? = some (w.relocate distance) := by
        rw [Array.getElem?_map, hw, Option.map_some]
      rw [successors_eq_exits hw, successors_eq_exits hmoved]
      exact Word.exits_relocate (hwords w (Array.mem_of_getElem? hw)) hload i

theorem analyze_map_relocate (hwords : ∀ w ∈ words, w.Relocatable distance)
    (hload : (load'.toNat : Int) = load.toNat + distance) (entry : Nat) :
    analyze (words.map (Word.relocate distance)) entry load' = analyze words entry load :=
  analyze_congr (by simp) (successors_map_relocate hwords hload) entry

/-- The line of a moved word is the line of the word with everything in it moved. -/
theorem lineOf_relocate {w : Word} (h : w.Relocatable distance)
    (hload : (load'.toNat : Int) = load.toNat + distance) (r : Reachability) (i : Nat) :
    ((Listing.lineOf r load' i (w.relocate distance)).address : Int) =
        (Listing.lineOf r load i w).address + distance ∧
      (Listing.lineOf r load' i (w.relocate distance)).kind =
        (Listing.lineOf r load i w).kind.relocate distance := by
  constructor
  · simp only [Listing.lineOf, Address.ofIndex, Nat.cast_add, hload]
    omega
  · cases hr : r.isReached i with
    | true =>
        rw [Listing.lineOf_of_isReached hr, Listing.lineOf_of_isReached hr]
        exact congrArg LineKind.code (Instruction.decode_relocate h)
    | false =>
        rw [Listing.lineOf_of_not_isReached hr, Listing.lineOf_of_not_isReached hr]
        rfl

/-- The analysis does not depend on where a program is loaded. Let an image be moved by a
distance, together with the address of every jump, call and indexed jump in it, and let
these stay twelve-bit addresses. Then the analysis finds the same marks in the same order
and drops equally many targets, and each line of the listing is the line that stood there,
with its address, its word and the address of its instruction moved. -/
theorem relocation_invariant (words : Array Word) (entry : Nat) (load load' : UInt16)
    (distance : Int) (hload : (load'.toNat : Int) = load.toNat + distance)
    (hwords : ∀ w ∈ words, w.Relocatable distance) :
    (analyze (words.map (Word.relocate distance)) entry load').reached =
      (analyze words entry load).reached ∧
    (analyze (words.map (Word.relocate distance)) entry load').order =
      (analyze words entry load).order ∧
    (analyze (words.map (Word.relocate distance)) entry load').dropped =
      (analyze words entry load).dropped ∧
    (Listing.build (words.map (Word.relocate distance))
        (analyze (words.map (Word.relocate distance)) entry load') load').lines.size =
      (Listing.build words (analyze words entry load) load).lines.size ∧
    ∀ (i : Nat) (line : Line),
      (Listing.build words (analyze words entry load) load).lines[i]? = some line →
      ∃ line', (Listing.build (words.map (Word.relocate distance))
          (analyze (words.map (Word.relocate distance)) entry load') load').lines[i]? =
            some line' ∧
        (line'.address : Int) = line.address + distance ∧
        line'.word = line.word.relocate distance ∧
        line'.isCode = line.isCode ∧
        line'.kind = line.kind.relocate distance := by
  rw [analyze_map_relocate hwords hload]
  refine ⟨rfl, rfl, rfl, ?_, ?_⟩
  · rw [Listing.size_build, Listing.size_build, Array.size_map]
  · intro i line hline
    rw [Listing.getElem?_lines_build] at hline
    obtain ⟨w, hw, rfl⟩ := Option.map_eq_some_iff.mp hline
    obtain ⟨haddress, hkind⟩ := lineOf_relocate (hwords w (Array.mem_of_getElem? hw)) hload
      (analyze words entry load) i
    refine ⟨Listing.lineOf (analyze words entry load) load' i (w.relocate distance), ?_,
      haddress, rfl, ?_, hkind⟩
    · rw [Listing.getElem?_lines_build, Array.getElem?_map, hw, Option.map_some, Option.map_some]
    · rw [Listing.isCode_lineOf, Listing.isCode_lineOf]

/-- A call to an odd address and a jump to just below the image, moved by an odd distance.
The address of `ANNN` stays, and both images are all code. -/
theorem relocation_invariant_by_three :
    (∀ w ∈ (#[0x2205, 0x11FF, 0xA205] : Array Word), w.Relocatable 3) ∧
      (#[0x2205, 0x11FF, 0xA205] : Array Word).map (Word.relocate 3) =
        #[0x2208, 0x1202, 0xA205] ∧
      (analyze #[0x2208, 0x1202, 0xA205] 0 0x203).order = #[0, 2, 1] ∧
      (analyze #[0x2208, 0x1202, 0xA205] 0 0x203).dropped = 2 := by
  have hwords : ∀ w ∈ (#[0x2205, 0x11FF, 0xA205] : Array Word), w.Relocatable 3 := by
    intro w hw
    simp only [List.mem_toArray, List.mem_cons, List.not_mem_nil, or_false] at hw
    rcases hw with rfl | rfl | rfl
    · exact fun _ => by decide
    · exact fun _ => by decide
    · exact fun h => absurd h (by decide)
  have hmoved : (#[0x2205, 0x11FF, 0xA205] : Array Word).map (Word.relocate 3) =
      #[0x2208, 0x1202, 0xA205] := by decide +kernel
  obtain ⟨-, horder, hdropped, -⟩ :=
    relocation_invariant #[0x2205, 0x11FF, 0xA205] 0 0x200 0x203 3 (by decide) hwords
  rw [hmoved] at horder hdropped
  refine ⟨hwords, hmoved, horder.trans ?_, hdropped.trans ?_⟩
  · decide +kernel
  · decide +kernel

end Reachability

end Chip8
