import Chip8.Proofs.Listing
import Chip8.Proofs.Reachability

/-!
# Images that agree on their code

The analysis reads a word only when it has marked it. Two images of one size that hold
the same words wherever the first one is marked are therefore walked alike, candidate
by candidate, and the data between the code has no say in what is found to be code.
-/

namespace Chip8

namespace Walk

variable {f g : Nat → List Int}

theorem marked_run_of_marked {w : Walk} {i : Nat} (h : w.Marked i) : (run f w).Marked i :=
  run_of_moves (fun hmove hm => hmove.marked_mono hm) h

/-- A move asks for the successors of an index only if it marks that index. -/
theorem Move.congr {w w' : Walk} (hmove : Move f w w') (h : ∀ i, w'.Marked i → f i = g i) :
    Move g w w' := by
  cases hmove with
  | drop hc => exact .drop hc
  | pass hi hr => exact .pass hi hr
  | @mark reached order i rest dropped hi hr =>
      have hmarked : (reached.set i true)[i]? = some true := Array.getElem?_set_self hi
      rw [h i hmarked]
      exact .mark hi hr

/-- Walks in lock step: where the successor lists agree on all that one walk marks in the
end, the other walk makes the same steps. -/
theorem run_congr {w : Walk} (h : ∀ i, (run f w).Marked i → f i = g i) : run g w = run f w := by
  fun_induction run f w with
  | case1 w hend => exact run_of_pending_eq_nil g hend
  | case2 w hpending _ ih =>
      -- what this step marks stays marked to the end, and there the lists agree
      have hmove : Move g w (w.step f) :=
        (move_step hpending).congr fun i hi => h i (marked_run_of_marked hi)
      rw [← run_step, hmove.step_eq]
      exact ih h

end Walk

namespace Reachability

variable {words words' : Array Word} {entry : Nat} {load : UInt16}

theorem analyze_eq_of_agree (hsize : words.size = words'.size)
    (hcode : ∀ i, (analyze words entry load).isReached i = true → words[i]? = words'[i]?) :
    analyze words' entry load = analyze words entry load := by
  have hwalk : finalWalk words' entry load = finalWalk words entry load := by
    unfold finalWalk startWalk
    rw [← hsize]
    apply Walk.run_congr
    intro i hi
    have hword := hcode i (isReached_analyze_iff_marked.mpr hi)
    rw [successors, successors, hword]
  rw [analyze, hwalk]
  rfl

theorem lines_build_of_not_isReached (words : Array Word) {r : Reachability} {i : Nat}
    (h : r.isReached i = false) :
    (Listing.build words r load).lines[i]? = words[i]?.map (Listing.directive load i) := by
  rw [Listing.getElem?_lines_build]
  congr 1
  funext w
  exact Listing.lineOf_of_not_isReached h

/-- Data does not influence the classification. Let two images of one size hold the same
words wherever the first is marked. Then their analyses find the same marks in the same
order and drop equally many targets, the listings have the same lines of code, and each
other line is the `db` directive of the word that its own image holds there. -/
theorem classification_independent_of_data (words words' : Array Word) (entry : Nat)
    (load : UInt16) (hsize : words.size = words'.size)
    (hcode : ∀ i, (analyze words entry load).isReached i = true → words[i]? = words'[i]?) :
    (analyze words' entry load).reached = (analyze words entry load).reached ∧
    (analyze words' entry load).order = (analyze words entry load).order ∧
    (analyze words' entry load).dropped = (analyze words entry load).dropped ∧
    (analyze words' entry load).record = (analyze words entry load).record ∧
    (∀ i, (analyze words entry load).isReached i = true →
      ∃ line, line.isCode = true ∧
        (Listing.build words (analyze words entry load) load).lines[i]? = some line ∧
        (Listing.build words' (analyze words' entry load) load).lines[i]? = some line) ∧
    (∀ i < words.size, (analyze words entry load).isReached i = false →
      (Listing.build words (analyze words entry load) load).lines[i]? =
        words[i]?.map (Listing.directive load i) ∧
      (Listing.build words' (analyze words' entry load) load).lines[i]? =
        words'[i]?.map (Listing.directive load i)) ∧
    ∀ i w, (Listing.directive load i w).display =
      Hex.padded 3 (load.toNat + 2 * i) ++ ": " ++ ("db  " ++ Hex.padded 4 w.toNat) := by
  have heq := analyze_eq_of_agree hsize hcode
  rw [heq]
  refine ⟨rfl, rfl, rfl, rfl, ?_, ?_, Listing.display_directive load⟩
  · intro i hi
    have hlt := isReached_lt_size hi
    refine ⟨Listing.lineOf (analyze words entry load) load i words[i], ?_, ?_, ?_⟩
    · rw [Listing.isCode_lineOf, hi]
    · rw [Listing.getElem?_lines_build, Array.getElem?_eq_getElem hlt, Option.map_some]
    · rw [Listing.getElem?_lines_build, ← hcode i hi, Array.getElem?_eq_getElem hlt,
        Option.map_some]
  · intro i _ hdata
    exact ⟨lines_build_of_not_isReached words hdata, lines_build_of_not_isReached words' hdata⟩

/-- A jump to itself reaches no other word, so the words behind it may be any. -/
theorem classification_independent_of_two_words :
    (∀ i, (analyze #[0x1200, 0x6A02, 0x00E0] 0 0x200).isReached i = true →
        (#[0x1200, 0x6A02, 0x00E0] : Array Word)[i]? =
          (#[0x1200, 0xFFFF, 0x1202] : Array Word)[i]?) ∧
      (analyze #[0x1200, 0xFFFF, 0x1202] 0 0x200).order =
        (analyze #[0x1200, 0x6A02, 0x00E0] 0 0x200).order ∧
      (Listing.build #[0x1200, 0xFFFF, 0x1202]
          (analyze #[0x1200, 0xFFFF, 0x1202] 0 0x200) 0x200).lines[1]? =
        some (Listing.directive 0x200 1 0xFFFF) := by
  have hmarks : ∀ i, (analyze #[0x1200, 0x6A02, 0x00E0] 0 0x200).isReached i = true → i = 0 := by
    intro i hi
    refine mem_of_isReached (s := {0}) (fun _ _ => rfl) ?_ hi
    rintro i rfl j ⟨w, hw, hj, -⟩
    cases hw
    exact Int.ofNat_inj.mp (List.mem_singleton.mp hj)
  have hcode : ∀ i, (analyze #[0x1200, 0x6A02, 0x00E0] 0 0x200).isReached i = true →
      (#[0x1200, 0x6A02, 0x00E0] : Array Word)[i]? =
        (#[0x1200, 0xFFFF, 0x1202] : Array Word)[i]? := by
    intro i hi
    cases hmarks i hi
    rfl
  have hdata : (analyze #[0x1200, 0x6A02, 0x00E0] 0 0x200).isReached 1 = false := by
    rw [Bool.eq_false_iff]
    intro h
    cases hmarks 1 h
  obtain ⟨-, horder, -, -, -, hlines, -⟩ :=
    classification_independent_of_data #[0x1200, 0x6A02, 0x00E0] #[0x1200, 0xFFFF, 0x1202] 0 0x200
      rfl hcode
  exact ⟨hcode, horder, (hlines 1 (by decide) hdata).2⟩

end Reachability

end Chip8
