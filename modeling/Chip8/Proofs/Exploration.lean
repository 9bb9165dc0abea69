import Chip8.Proofs.Reachability
import Mathlib.Algebra.BigOperators.Fin

/-!
# What a walk drops

A candidate comes onto the stack with the roots or with the index that it is a successor of,
and that index is marked then, once and for all. It leaves the stack when it is dealt with. So
at every moment the candidates dropped so far and the ones on the stack that are out of range
are, in number, those of the roots and of the marked indices.

Nothing in this argument asks which candidate is dealt with next. An exploration may take the
candidates in any order: it marks the same indices in the end, and drops as many candidates.
-/

namespace Chip8

namespace Walk

variable {successors : Nat → List Int} {roots : List Int} {size : Nat}

/-! ## Candidates that are no index -/

/-- How many of these candidates are no index of a graph of this size. -/
def outside (size : Nat) (candidates : List Int) : Nat :=
  candidates.countP fun c => c < 0 ∨ (size : Int) ≤ c

theorem outside_append (cs ds : List Int) :
    outside size (cs ++ ds) = outside size cs + outside size ds :=
  List.countP_append

theorem outside_cons_of_outside {c : Int} (h : ¬(0 ≤ c ∧ c.toNat < size)) (cs : List Int) :
    outside size (c :: cs) = outside size cs + 1 := by
  apply List.countP_cons_of_pos
  rw [decide_eq_true_eq]
  omega

theorem outside_cons_of_lt {i : Nat} (h : i < size) (cs : List Int) :
    outside size ((i : Int) :: cs) = outside size cs := by
  apply List.countP_cons_of_neg
  rw [decide_eq_true_eq]
  omega

/-! ## Exploring in any order -/

/-- A move that may deal with any of the pending candidates. -/
def FreeMove (successors : Nat → List Int) (w w' : Walk) : Prop :=
  ∃ pending, w.pending.Perm pending ∧ Move successors { w with pending } w'

theorem Move.free {w w' : Walk} (hmove : Move successors w w') : FreeMove successors w w' :=
  ⟨w.pending, .refl _, hmove⟩

/-- The walk is one of the explorations. -/
theorem freeMoves_run (successors : Nat → List Int) (w : Walk) :
    Relation.ReflTransGen (FreeMove successors) w (run successors w) :=
  (moves_run successors w).lift id fun _ _ => Move.free

theorem Invariant.reorder {w : Walk} {pending : List Int}
    (h : Invariant successors roots size w) (hperm : w.pending.Perm pending) :
    Invariant successors roots size { w with pending } where
  size_reached := h.size_reached
  called_of_mem := fun c hc => h.called_of_mem c (hperm.mem_iff.mpr hc)
  mem_of_called := fun i hi hcalled => (h.mem_of_called i hi hcalled).imp_right hperm.mem_iff.mp
  reaches := h.reaches
  nodup := h.nodup
  mem_order := h.mem_order
  count := h.count

/-! ## The balance -/

/-- The candidates out of range that have been dropped or wait for it are those of the roots
and of the indices in the order of visits. -/
def Balanced (successors : Nat → List Int) (roots : List Int) (size : Nat) (w : Walk) : Prop :=
  w.dropped + outside size w.pending =
    outside size roots + (w.order.toList.map fun i => outside size (successors i)).sum

theorem balanced_start (successors : Nat → List Int) (roots : List Int) (size : Nat) :
    Balanced successors roots size (start size roots) := by
  simp [Balanced, start]

theorem Balanced.reorder {w : Walk} {pending : List Int} (h : Balanced successors roots size w)
    (hperm : w.pending.Perm pending) : Balanced successors roots size { w with pending } := by
  have hcount : outside size w.pending = outside size pending := hperm.countP_eq _
  simpa only [Balanced, hcount] using h

theorem Balanced.move {w w' : Walk} (hmove : Move successors w w') (hsize : w.reached.size = size)
    (h : Balanced successors roots size w) : Balanced successors roots size w' := by
  subst hsize
  cases hmove with
  | drop hc =>
      simp only [Balanced, outside_cons_of_outside hc] at h ⊢
      omega
  | pass hi hr =>
      simp only [Balanced, outside_cons_of_lt hi] at h ⊢
      exact h
  | mark hi hr =>
      -- the index goes, its successors come
      simp only [Balanced, outside_cons_of_lt hi, outside_append, Array.toList_push,
        List.map_append, List.map_singleton, List.sum_append, List.sum_singleton] at h ⊢
      omega

theorem explored {w : Walk}
    (h : Relation.ReflTransGen (FreeMove successors) (start size roots) w) :
    Invariant successors roots size w ∧ Balanced successors roots size w := by
  induction h with
  | refl => exact ⟨invariant_start successors roots size, balanced_start successors roots size⟩
  | tail _ hfree ih =>
      obtain ⟨hinv, hbalanced⟩ := ih
      obtain ⟨pending, hperm, hmove⟩ := hfree
      have hinv' := hinv.reorder hperm
      exact ⟨hinv'.move hmove, (hbalanced.reorder hperm).move hmove hinv'.size_reached⟩

/-- When no candidate is left, the balance gives the number of those that were dropped. -/
theorem dropped_of_explored {w : Walk}
    (h : Relation.ReflTransGen (FreeMove successors) (start size roots) w)
    (hend : w.pending = []) :
    w.dropped =
      outside size roots + (w.order.toList.map fun i => outside size (successors i)).sum := by
  obtain ⟨-, hbalanced⟩ := explored h
  rw [Balanced, hend] at hbalanced
  exact hbalanced

/-- Explorations that have come to their end have visited the same indices. -/
theorem perm_order_of_explored {w w' : Walk}
    (h : Relation.ReflTransGen (FreeMove successors) (start size roots) w)
    (h' : Relation.ReflTransGen (FreeMove successors) (start size roots) w')
    (hend : w.pending = []) (hend' : w'.pending = []) :
    w.order.toList.Perm w'.order.toList := by
  obtain ⟨hinv, -⟩ := explored h
  obtain ⟨hinv', -⟩ := explored h'
  rw [List.perm_ext_iff_of_nodup hinv.nodup hinv'.nodup]
  intro i
  rw [Array.mem_toList_iff, Array.mem_toList_iff, hinv.mem_order, hinv'.mem_order,
    hinv.marked_iff hend, hinv'.marked_iff hend']

theorem dropped_eq_of_explored {w w' : Walk}
    (h : Relation.ReflTransGen (FreeMove successors) (start size roots) w)
    (h' : Relation.ReflTransGen (FreeMove successors) (start size roots) w')
    (hend : w.pending = []) (hend' : w'.pending = []) : w.dropped = w'.dropped := by
  have hperm := (perm_order_of_explored h h' hend hend').map fun i => outside size (successors i)
  rw [dropped_of_explored h hend, dropped_of_explored h' hend', hperm.sum_nat]

/-- A sum over the order of visits is a sum over the marks. -/
theorem Invariant.sum_map_order {w : Walk} (h : Invariant successors roots size w) (f : Nat → Nat) :
    (w.order.toList.map f).sum = ∑ i : Fin size, if w.Marked i then f i else 0 := by
  have hmarked : w.order.toList.toFinset = (Finset.range size).filter fun i => w.Marked i := by
    ext i
    rw [List.mem_toFinset, Array.mem_toList_iff, h.mem_order, Finset.mem_filter, Finset.mem_range]
    exact ⟨fun hi => ⟨h.size_reached ▸ hi.lt_size, hi⟩, fun hi => hi.2⟩
  rw [← List.sum_toFinset f h.nodup, hmarked, Finset.sum_filter, Finset.sum_range]

end Walk

namespace Reachability

variable {words : Array Word} {entry : Nat} {load : UInt16}

theorem outside_entries (entry size : Nat) :
    Walk.outside size (entries entry) = if entry < 2 ^ 63 ∧ size ≤ entry then 1 else 0 := by
  by_cases h : entry < 2 ^ 63
  · rw [entries_of_lt h]
    by_cases hsize : size ≤ entry
    · rw [if_pos ⟨h, hsize⟩, Walk.outside_cons_of_outside (by omega)]
      rfl
    · rw [if_neg (by omega), Walk.outside_cons_of_lt (by omega)]
      rfl
  · rw [entries_of_ge h, if_neg (by omega)]
    rfl

theorem sum_map_order_analyze (f : Nat → Nat) :
    ((analyze words entry load).order.toList.map f).sum =
      ∑ i : Fin words.size, if (analyze words entry load).isReached i then f i else 0 := by
  simp only [isReached_analyze_iff_marked]
  exact (invariant_finalWalk words entry load).sum_map_order f

theorem count_analyze : (analyze words entry load).count =
    ∑ i : Fin words.size, if (analyze words entry load).isReached i then 1 else 0 := by
  rw [← sum_map_order_analyze fun _ => 1]
  simp [count]

theorem successors_fin (i : Fin words.size) :
    successors words load i = (Successors.of (Instruction.decode words[i]) i load).toList := by
  rw [successors, Array.getElem?_eq_getElem i.isLt]
  rfl

/-- The record of an analysis counts exactly: the words that are marked, all words, and the
candidates out of range, which are the entry if it is a signed number and no index, and of the
successors of each marked word those that are no index, as often as they are listed. The order
of exploration has no part in it. Take the pending candidates in any order: once none is left,
the same words are marked and the record is the same. -/
theorem record_counts_exactly (words : Array Word) (entry : Nat) (load : UInt16) :
    (∃ marked dropped : Nat,
      (analyze words entry load).record =
        ⟨.debug, .analysis, "reachability: " ++ toString marked ++ " of " ++ toString words.size ++
          " words are code, " ++ toString dropped ++ " out-of-range targets dropped"⟩ ∧
      marked = (∑ i : Fin words.size, if (analyze words entry load).isReached i then 1 else 0) ∧
      dropped = (if entry < 2 ^ 63 ∧ words.size ≤ entry then 1 else 0) +
        ∑ i : Fin words.size, if (analyze words entry load).isReached i then
          Walk.outside words.size (Successors.of (Instruction.decode words[i]) i load).toList
        else 0) ∧
    ∀ w, Relation.ReflTransGen (Walk.FreeMove (successors words load)) (startWalk words entry) w →
      w.pending = [] →
      (∀ i, w.Marked i ↔ (analyze words entry load).isReached i = true) ∧
      record { reached := w.reached, order := w.order, dropped := w.dropped } =
        (analyze words entry load).record := by
  have hrun := Walk.freeMoves_run (successors words load) (startWalk words entry)
  have hend : (finalWalk words entry load).pending = [] := Walk.pending_run _ _
  refine ⟨⟨_, (analyze words entry load).dropped, ?_, count_analyze, ?_⟩, ?_⟩
  · rw [← size_analyze words entry load]
    rfl
  · have hdropped : (analyze words entry load).dropped = _ := Walk.dropped_of_explored hrun hend
    rw [outside_entries] at hdropped
    simp only [← successors_fin]
    rw [hdropped]
    exact congrArg _ (sum_map_order_analyze _)
  · intro w hexplored hdone
    obtain ⟨hinv, -⟩ := Walk.explored hexplored
    refine ⟨fun i => (hinv.marked_iff hdone i).trans isReached_analyze_iff_reaches.symm, ?_⟩
    have hcount : w.order.size = (analyze words entry load).order.size :=
      (Walk.perm_order_of_explored hexplored hrun hdone hend).length_eq
    have hsize : w.reached.size = (analyze words entry load).reached.size :=
      hinv.size_reached.trans (size_analyze words entry load).symm
    have hdropped : w.dropped = (analyze words entry load).dropped :=
      Walk.dropped_eq_of_explored hexplored hrun hdone hend
    simp only [record, count, size, hcount, hsize, hdropped]

/-- A call of an address beyond the image, in front of a jump below it. The word behind the call
is explored before what it calls, and still two targets are dropped. -/
theorem record_counts_exactly_call_last :
    ∃ w, Relation.ReflTransGen (Walk.FreeMove (successors #[0x2FFE, 0x1000] 0x200))
        (startWalk #[0x2FFE, 0x1000] 0) w ∧
      w.pending = [] ∧ w.dropped = 2 ∧
      record { reached := w.reached, order := w.order, dropped := w.dropped } =
        ⟨.debug, .analysis,
          "reachability: 2 of 2 words are code, 2 out-of-range targets dropped"⟩ := by
  have hcall : Walk.FreeMove (successors #[0x2FFE, 0x1000] 0x200) (startWalk #[0x2FFE, 0x1000] 0)
      ⟨#[true, false], #[0], [1791, 1], 0⟩ := ⟨[0], .refl _, .mark (i := 0) (by decide) rfl⟩
  have hbehind : Walk.FreeMove (successors #[0x2FFE, 0x1000] 0x200)
      ⟨#[true, false], #[0], [1791, 1], 0⟩ ⟨#[true, true], #[0, 1], [-256, 1791], 0⟩ :=
    ⟨[1, 1791], .swap .., .mark (i := 1) (by decide) rfl⟩
  have hjump : Walk.FreeMove (successors #[0x2FFE, 0x1000] 0x200)
      ⟨#[true, true], #[0, 1], [-256, 1791], 0⟩ ⟨#[true, true], #[0, 1], [1791], 1⟩ :=
    ⟨_, .refl _, .drop (by decide)⟩
  have hcalled : Walk.FreeMove (successors #[0x2FFE, 0x1000] 0x200)
      ⟨#[true, true], #[0, 1], [1791], 1⟩ ⟨#[true, true], #[0, 1], [], 2⟩ :=
    ⟨_, .refl _, .drop (by decide)⟩
  have hexplored := (((Relation.ReflTransGen.single hcall).tail hbehind).tail hjump).tail hcalled
  obtain ⟨-, hany⟩ := record_counts_exactly #[0x2FFE, 0x1000] 0 0x200
  obtain ⟨-, hrecord⟩ := hany _ hexplored rfl
  exact ⟨_, hexplored, rfl, rfl, hrecord.trans (by decide +kernel)⟩

end Reachability

end Chip8
