import Chip8.Proofs.ControlFlow
import Mathlib.Tactic.SplitIfs

/-!
# The range of candidates

An instruction has between one and 128 candidates. A transfer names twelve bits, and the load
address has sixteen, so the words that a transfer can lead to have small indices, however large
the image is. All others lie right behind the instruction.

An index is a signed 64-bit number, and so is all that comes up on the way to one. An image
that fits in memory is too small for any of these results to be out of range.
-/

namespace Chip8

/-! ## Results that fit -/

/-- The result of an operation on signed 64-bit numbers, if it is one of them. -/
def signed? (n : Int) : Option Int := if -2 ^ 63 ≤ n ∧ n < 2 ^ 63 then some n else none

theorem signed?_of_fits {n : Int} (hlow : -2 ^ 63 ≤ n) (hhigh : n < 2 ^ 63) :
    signed? n = some n := if_pos ⟨hlow, hhigh⟩

namespace Address

/-- The index of an address, one operation at a time. -/
def toIndex? (load address : UInt16) : Option Int :=
  (signed? ((address.toNat : Int) - load.toNat)).bind fun distance => signed? (distance / 2)

theorem toIndex_bounds (load address : UInt16) :
    -32768 ≤ toIndex load address ∧ toIndex load address ≤ 32767 := by
  have haddress : address.toNat < 65536 := address.toNat_lt
  have hload : load.toNat < 65536 := load.toNat_lt
  unfold toIndex
  omega

theorem toIndex?_eq (load address : UInt16) :
    toIndex? load address = some (toIndex load address) := by
  have haddress : address.toNat < 65536 := address.toNat_lt
  have hload : load.toNat < 65536 := load.toNat_lt
  have hindex := toIndex_bounds load address
  have hdistance : signed? ((address.toNat : Int) - load.toNat) =
      some ((address.toNat : Int) - load.toNat) := signed?_of_fits (by omega) (by omega)
  rw [toIndex?, hdistance, Option.bind_some]
  exact signed?_of_fits (by omega) (by omega)

end Address

namespace Successors

/-- The successors of an instruction, one operation at a time: its own index, the index of the
address that it names, the indices behind it, and where a span ends. -/
def of? (instruction : Instruction) (here : Nat) (load : UInt16) : Option Successors :=
  (signed? here).bind fun here =>
    match instruction.flow with
    | .next => (signed? (here + 1)).map one
    | .jump a => (Address.toIndex? load a).map one
    | .call a => (Address.toIndex? load a).bind fun target => (signed? (here + 1)).map (two target)
    | .skip => (signed? (here + 1)).bind fun first => (signed? (here + 2)).map (two first)
    | .indexedJump a =>
      (Address.toIndex? load a).bind fun base =>
        (signed? (base + indexedJumpSpan)).map fun _ => span base

theorem signed?_end (load address : UInt16) :
    signed? (Address.toIndex load address + indexedJumpSpan) =
      some (Address.toIndex load address + indexedJumpSpan) := by
  have hbase := Address.toIndex_bounds load address
  have hspan : (indexedJumpSpan : Int) = 128 := rfl
  exact signed?_of_fits (by omega) (by omega)

/-- No operation overflows unless the instruction stands at the very end of the numbers. -/
theorem of?_eq (instruction : Instruction) {here : Nat} (h : here + 2 < 2 ^ 63) (load : UInt16) :
    of? instruction here load = some (of instruction here load) := by
  have hself : signed? here = some (here : Int) := signed?_of_fits (by omega) (by omega)
  have hone : signed? ((here : Int) + 1) = some (here + 1 : Int) :=
    signed?_of_fits (by omega) (by omega)
  have htwo : signed? ((here : Int) + 2) = some (here + 2 : Int) :=
    signed?_of_fits (by omega) (by omega)
  unfold of? of
  rw [hself, Option.bind_some]
  cases instruction.flow with
  | next => simp only [hone, Option.map_some]
  | jump a => simp only [Address.toIndex?_eq, Option.map_some]
  | call a => simp only [Address.toIndex?_eq, hone, Option.bind_some, Option.map_some]
  | skip => simp only [hone, htwo, Option.bind_some, Option.map_some]
  | indexedJump a => simp only [Address.toIndex?_eq, signed?_end, Option.bind_some, Option.map_some]

/-! ## How many there are -/

theorem length_toList_pos (s : Successors) : 1 ≤ s.toList.length := by
  cases s with
  | one => exact Nat.le_refl 1
  | two => exact Nat.le_succ 1
  | span base =>
      rw [length_toList_span]
      decide

theorem length_toList_le (s : Successors) : s.toList.length ≤ indexedJumpSpan := by
  cases s with
  | one => exact Nat.le_of_ble_eq_true rfl
  | two => exact Nat.le_of_ble_eq_true rfl
  | span base => exact Nat.le_of_eq (length_toList_span base)

end Successors

/-! ## Where they lie -/

namespace Word

theorem target_bounds (w : Word) (load : UInt16) :
    -32768 ≤ w.target load ∧ w.target load ≤ 2047 := by
  have hload : load.toNat < 65536 := load.toNat_lt
  unfold target
  omega

/-- The last word of a span from the highest address has the index 2174. -/
theorem exits_bounds {w : Word} {load : UInt16} {i : Nat} {c : Int} (h : c ∈ w.exits load i) :
    -32768 ≤ c ∧ (c ≤ i + 2 ∨ c ≤ 2174) := by
  obtain ⟨hlow, hhigh⟩ := w.target_bounds load
  unfold exits at h
  split_ifs at h with hjump hcall hskip hindexed
  · cases List.mem_singleton.mp h
    omega
  · rcases List.mem_cons.mp h with rfl | h
    · omega
    · cases List.mem_singleton.mp h
      omega
  · rcases List.mem_cons.mp h with rfl | h
    · omega
    · cases List.mem_singleton.mp h
      omega
  · obtain ⟨k, hk, rfl⟩ := List.mem_map.mp h
    have hspan : k < 128 := List.mem_range.mp hk
    omega
  · cases List.mem_singleton.mp h
    omega

end Word

namespace Reachability

variable {words : Array Word} {load : UInt16} {i : Nat}

theorem length_successors_pos (hi : i < words.size) : 1 ≤ (successors words load i).length := by
  rw [successors, Array.getElem?_eq_getElem hi]
  exact Successors.length_toList_pos _

theorem length_successors_le (words : Array Word) (load : UInt16) (i : Nat) :
    (successors words load i).length ≤ indexedJumpSpan := by
  unfold successors
  cases words[i]? with
  | none => exact Nat.zero_le _
  | some w => exact Successors.length_toList_le _

theorem successors_bounds {c : Int} (h : c ∈ successors words load i) :
    -32768 ≤ c ∧ c ≤ max (words.size + 1 : Int) 2174 := by
  obtain ⟨w, hw, hc⟩ := mem_successors_iff.mp h
  obtain ⟨hi, -⟩ := Array.getElem?_eq_some_iff.mp hw
  obtain ⟨hlow, hhigh⟩ := Word.exits_bounds hc
  omega

end Reachability

end Chip8
