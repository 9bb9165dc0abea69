import Chip8.Proofs.Candidates
import Chip8.Proofs.Exploration
import Mathlib.Algebra.Order.BigOperators.Group.Finset

/-!
# How far a walk goes

A step takes one candidate off the stack. Candidates come onto it with the roots, or with the
index that they are successors of when that index is marked, which happens once. After `k`
steps of an unfinished walk the candidates of the roots and of the indices in the order of
visits are therefore the `k` that are gone and those on the stack.

The end follows from this balance and needs no measure: the walk is finished after as many
steps as candidates will ever have come. The height of the stack follows as well, as each mark
took a step.
-/

namespace Chip8

namespace Walk

variable {successors : Nat → List Int} {roots : List Int} {size : Nat}

/-! ## Step by step -/

/-- The walk from the roots after so many steps. Once finished it stays as it is. -/
def after (successors : Nat → List Int) (roots : List Int) (size k : Nat) : Walk :=
  (step successors)^[k] (start size roots)

theorem after_succ (k : Nat) :
    after successors roots size (k + 1) = (after successors roots size k).step successors :=
  Function.iterate_succ_apply' ..

theorem step_of_pending_eq_nil {w : Walk} (h : w.pending = []) : w.step successors = w := by
  obtain ⟨reached, order, pending, dropped⟩ := w
  cases h
  rfl

/-- What every move keeps, a step keeps. -/
theorem step_of_moves {P : Walk → Prop}
    (hmove : ∀ {w w' : Walk}, Move successors w w' → P w → P w') {w : Walk} (h : P w) :
    P (w.step successors) := by
  by_cases hpending : w.pending = []
  · rwa [step_of_pending_eq_nil hpending]
  · exact hmove (move_step hpending) h

theorem after_of_moves {P : Walk → Prop}
    (hmove : ∀ {w w' : Walk}, Move successors w w' → P w → P w') (h : P (start size roots))
    (k : Nat) : P (after successors roots size k) := by
  induction k with
  | zero => exact h
  | succ k ih =>
      rw [after_succ]
      exact step_of_moves hmove ih

theorem invariant_after (successors : Nat → List Int) (roots : List Int) (size k : Nat) :
    Invariant successors roots size (after successors roots size k) :=
  after_of_moves (fun hmove h => h.move hmove) (invariant_start successors roots size) k

/-- Marks are never undone, however many steps lie between. -/
theorem Marked.after_le {k l : Nat} (hkl : k ≤ l) {i : Nat}
    (h : (after successors roots size k).Marked i) :
    (after successors roots size l).Marked i := by
  induction hkl with
  | refl => exact h
  | step _ ih =>
      rw [after_succ]
      exact step_of_moves (fun hmove hi => hmove.marked_mono hi) ih

theorem run_after (successors : Nat → List Int) (roots : List Int) (size k : Nat) :
    run successors (after successors roots size k) = run successors (start size roots) := by
  induction k with
  | zero => rfl
  | succ k ih => rw [after_succ, run_step, ih]

/-- A walk that is finished has got where the run ends. -/
theorem after_eq_run {k : Nat} (h : (after successors roots size k).pending = []) :
    after successors roots size k = run successors (start size roots) := by
  rw [← run_after successors roots size k, run_of_pending_eq_nil successors h]

/-! ## The order of visits grows at its end -/

theorem Move.order_prefix {w w' : Walk} (hmove : Move successors w w') :
    w.order.toList <+: w'.order.toList := by
  cases hmove with
  | drop => exact List.prefix_rfl
  | pass => exact List.prefix_rfl
  | mark =>
      rw [Array.toList_push]
      exact List.prefix_append _ _

theorem order_prefix_run (successors : Nat → List Int) (w : Walk) :
    w.order.toList <+: (run successors w).order.toList := by
  have hkept : ∀ {v v' : Walk}, Move successors v v' →
      w.order.toList <+: v.order.toList → w.order.toList <+: v'.order.toList :=
    fun hmove h => h.trans hmove.order_prefix
  exact run_of_moves hkept List.prefix_rfl

/-! ## The candidates that have come -/

/-- The candidates of the roots and of the indices visited. -/
def brought (successors : Nat → List Int) (roots : List Int) (w : Walk) : Nat :=
  roots.length + (w.order.toList.map fun i => (successors i).length).sum

theorem brought_le_run (successors : Nat → List Int) (roots : List Int) (w : Walk) :
    brought successors roots w ≤ brought successors roots (run successors w) := by
  obtain ⟨visits, hvisits⟩ := order_prefix_run successors w
  unfold brought
  rw [← hvisits, List.map_append, List.sum_append]
  omega

/-- So many candidates have been taken off the stack, and each visit took one of them. -/
structure Spent (successors : Nat → List Int) (roots : List Int) (taken : Nat)
    (w : Walk) : Prop where
  balance : taken + w.pending.length = brought successors roots w
  visits : w.order.size ≤ taken

theorem spent_start (successors : Nat → List Int) (roots : List Int) (size : Nat) :
    Spent successors roots 0 (start size roots) where
  balance := by simp [brought, start]
  visits := by simp [start]

/-- A candidate that leaves the stack without a mark has been taken. -/
theorem Spent.skip {reached : Array Bool} {order : Array Nat} {c : Int} {rest : List Int}
    {dropped dropped' taken : Nat}
    (h : Spent successors roots taken ⟨reached, order, c :: rest, dropped⟩) :
    Spent successors roots (taken + 1) ⟨reached, order, rest, dropped'⟩ where
  balance := by
    have hbalance := h.balance
    simp only [brought, List.length_cons] at hbalance ⊢
    omega
  visits := Nat.le_succ_of_le h.visits

theorem Spent.move {w w' : Walk} (hmove : Move successors w w') {taken : Nat}
    (h : Spent successors roots taken w) : Spent successors roots (taken + 1) w' := by
  cases hmove with
  | drop hc => exact h.skip
  | pass hi hr => exact h.skip
  | mark hi hr =>
      -- the index goes, its successors come, and it is visited
      obtain ⟨hbalance, hvisits⟩ := h
      refine ⟨?_, ?_⟩
      · simp only [brought, List.length_cons, List.length_append, Array.toList_push,
          List.map_append, List.map_singleton, List.sum_append, List.sum_singleton] at hbalance ⊢
        omega
      · rw [Array.size_push]
        exact Nat.succ_le_succ hvisits

/-- An unfinished walk has taken a candidate with every step. -/
theorem spent_after (successors : Nat → List Int) (roots : List Int) (size k : Nat) :
    ∃ taken ≤ k, ((after successors roots size k).pending ≠ [] → taken = k) ∧
      Spent successors roots taken (after successors roots size k) := by
  -- a finished walk takes nothing any more, so its steps and its candidates are counted apart
  induction k with
  | zero => exact ⟨0, Nat.le_refl 0, fun _ => rfl, spent_start successors roots size⟩
  | succ k ih =>
      obtain ⟨taken, hle, heq, hspent⟩ := ih
      by_cases hpending : (after successors roots size k).pending = []
      · rw [after_succ, step_of_pending_eq_nil hpending]
        exact ⟨taken, Nat.le_succ_of_le hle, fun h => absurd hpending h, hspent⟩
      · cases heq hpending
        rw [after_succ]
        exact ⟨k + 1, Nat.le_refl _, fun _ => rfl, hspent.move (move_step hpending)⟩

/-- The walk is finished after as many steps as candidates come onto its stack, and not
before. -/
theorem pending_after_eq_nil_iff (k : Nat) :
    (after successors roots size k).pending = [] ↔
      brought successors roots (run successors (start size roots)) ≤ k := by
  obtain ⟨taken, hle, heq, hspent⟩ := spent_after successors roots size k
  constructor
  · intro hend
    have hbalance := hspent.balance
    rw [hend, after_eq_run hend, List.length_nil] at hbalance
    omega
  · intro hk
    by_contra hpending
    -- all `k` steps took a candidate, and one more is on the stack, so more than `k` come
    have hbalance := hspent.balance
    have hlength := List.length_pos_iff.mpr hpending
    have hbrought := brought_le_run successors roots (after successors roots size k)
    rw [run_after] at hbrought
    have htaken := heq hpending
    omega

/-! ## The height of the stack -/

theorem sum_map_pred_add_length {f : Nat → Nat} {xs : List Nat} (h : ∀ i ∈ xs, 1 ≤ f i) :
    (xs.map fun i => f i - 1).sum + xs.length = (xs.map f).sum := by
  induction xs with
  | nil => rfl
  | cons i xs ih =>
      have hi := h i List.mem_cons_self
      have hxs := ih fun j hj => h j (List.mem_cons_of_mem i hj)
      simp only [List.map_cons, List.sum_cons, List.length_cons]
      omega

/-- Each mark takes a candidate away and brings the successors of its index. -/
theorem length_pending_after_le (hsuccessors : ∀ i < size, 1 ≤ (successors i).length) (k : Nat) :
    (after successors roots size k).pending.length ≤
      roots.length + ∑ i : Fin size,
        if (after successors roots size k).Marked i then (successors i).length - 1 else 0 := by
  have hinv := invariant_after successors roots size k
  obtain ⟨taken, -, -, hspent⟩ := spent_after successors roots size k
  have hpositive : ∀ i ∈ (after successors roots size k).order.toList,
      1 ≤ (successors i).length := by
    intro i hi
    have hmarked := (hinv.mem_order i).mp (Array.mem_toList_iff.mp hi)
    exact hsuccessors i (hinv.size_reached ▸ hmarked.lt_size)
  have hsum := sum_map_pred_add_length hpositive
  have hbalance := hspent.balance
  have hvisits := hspent.visits
  rw [← hinv.sum_map_order fun i => (successors i).length - 1]
  rw [brought] at hbalance
  rw [Array.length_toList] at hsum
  omega

end Walk

namespace Reachability

variable {words : Array Word} {entry : Nat} {load : UInt16}

/-! ## The loop of the analysis -/

/-- The walk of the analysis after so many iterations. -/
def walkAfter (words : Array Word) (entry : Nat) (load : UInt16) (k : Nat) : Walk :=
  Walk.after (successors words load) (entries entry) words.size k

theorem length_entries (entry : Nat) : (entries entry).length = if entry < 2 ^ 63 then 1 else 0 := by
  by_cases h : entry < 2 ^ 63
  · rw [entries_of_lt h, if_pos h, List.length_singleton]
  · rw [entries_of_ge h, if_neg h, List.length_nil]

theorem sum_if_le {n bound : Nat} {p : Fin n → Prop} [DecidablePred p] {f : Fin n → Nat}
    (h : ∀ i, f i ≤ bound) : (∑ i, if p i then f i else 0) ≤ bound * n := by
  have hterm : ∀ i ∈ Finset.univ, (if p i then f i else 0) ≤ bound := by
    intro i _
    split_ifs
    · exact h i
    · exact Nat.zero_le bound
  have hsum := Finset.sum_le_card_nsmul Finset.univ _ bound hterm
  rwa [Finset.card_univ, Fintype.card_fin, smul_eq_mul, Nat.mul_comm] at hsum

/-- What holds of the walk at every moment: of the marks, of each candidate on the stack, and of
the height of the stack. -/
structure InBounds (words : Array Word) (entry : Nat) (load : UInt16) (w : Walk) : Prop where
  nodup : w.order.toList.Nodup
  mem_order : ∀ i, i ∈ w.order ↔ w.Marked i
  marked_or_mem : ∀ i, w.Marked i → ∀ j : Nat, (j : Int) ∈ successors words load i →
    j < words.size → w.Marked j ∨ (j : Int) ∈ w.pending
  called : ∀ c ∈ w.pending, c = entry ∨ ∃ i, w.Marked i ∧ c ∈ successors words load i
  low : ∀ c ∈ w.pending, -32768 ≤ c
  high : ∀ c ∈ w.pending, c ≤ max (entry : Int) (max (words.size + 1) 2174)
  length_le : w.pending.length ≤
    1 + ∑ i : Fin words.size, if w.Marked i then (successors words load i).length - 1 else 0
  length_le_size : w.pending.length ≤ 1 + 127 * words.size

/-- A candidate on the stack is the entry, as a signed number, or one of a word. -/
theorem bounds_of_mem_pending {k : Nat} {c : Int} (h : c ∈ (walkAfter words entry load k).pending) :
    (c = entry ∧ entry < 2 ^ 63) ∨ -32768 ≤ c ∧ c ≤ max (words.size + 1 : Int) 2174 := by
  rcases (Walk.invariant_after _ _ _ k).called_of_mem c h with hroot | ⟨i, -, hc⟩
  · exact Or.inl (mem_entries_iff.mp hroot)
  · exact Or.inr (successors_bounds hc)

theorem inBounds_walkAfter (words : Array Word) (entry : Nat) (load : UInt16) (k : Nat) :
    InBounds words entry load (walkAfter words entry load k) := by
  have hinv := Walk.invariant_after (successors words load) (entries entry) words.size k
  have hlength : (walkAfter words entry load k).pending.length ≤ 1 + ∑ i : Fin words.size,
      if (walkAfter words entry load k).Marked i then
        (successors words load i).length - 1 else 0 := by
    have hsuccessors : ∀ i < words.size, 1 ≤ (successors words load i).length :=
      fun i hi => length_successors_pos hi
    have hroots : (entries entry).length ≤ 1 := by
      rw [length_entries]
      split_ifs <;> decide
    exact (Walk.length_pending_after_le hsuccessors k).trans (Nat.add_le_add_right hroots _)
  have hspan : ∀ i : Fin words.size, (successors words load i).length - 1 ≤ 127 := fun i =>
    Nat.sub_le_of_le_add (length_successors_le words load i)
  refine ⟨hinv.nodup, hinv.mem_order, ?_, ?_, ?_, ?_, hlength, ?_⟩
  · intro i hi j hj hsize
    exact hinv.mem_of_called j hsize (Or.inr ⟨i, hi, hj⟩)
  · intro c hc
    exact (hinv.called_of_mem c hc).imp_left fun hroot => (mem_entries_iff.mp hroot).1
  · intro c hc
    rcases bounds_of_mem_pending hc with ⟨rfl, -⟩ | ⟨hlow, -⟩ <;> omega
  · intro c hc
    rcases bounds_of_mem_pending hc with ⟨rfl, -⟩ | ⟨-, hhigh⟩ <;> omega
  · exact hlength.trans (Nat.add_le_add_left (sum_if_le hspan) 1)

/-- In an image that fits in memory the candidates on the stack are signed numbers. -/
theorem signed?_of_mem_pending (hmemory : 2 * words.size < 2 ^ 63) {k : Nat} {c : Int}
    (h : c ∈ (walkAfter words entry load k).pending) : signed? c = some c := by
  rcases bounds_of_mem_pending h with ⟨rfl, hentry⟩ | ⟨hlow, hhigh⟩
  · exact signed?_of_fits (by omega) (by omega)
  · exact signed?_of_fits (by omega) (by omega)

/-- No walk starts from an entry that is no signed number, and so no candidate comes. -/
theorem brought_finalWalk (words : Array Word) (entry : Nat) (load : UInt16) :
    Walk.brought (successors words load) (entries entry) (finalWalk words entry load) =
      if entry < 2 ^ 63 then
        1 + ∑ i : Fin words.size, if (analyze words entry load).isReached i then
          (successors words load i).length else 0
      else 0 := by
  by_cases h : entry < 2 ^ 63
  · rw [Walk.brought, length_entries, if_pos h, if_pos h]
    exact congrArg _ (sum_map_order_analyze _)
  · have hend : (walkAfter words entry load 0).pending = [] := entries_of_ge h
    rw [if_neg h]
    exact Nat.eq_zero_of_le_zero ((Walk.pending_after_eq_nil_iff 0).mp hend)

/-- The loop of the analysis ends, and stays in bounds until then. At every moment the order of
visits lists the marks without repetition, the successors of marked words are marked or on the
stack, what is on the stack comes from the entry or from a mark and is a small number or the
entry, and the stack holds at most what the marks brought; marks stay. In an image that fits in
memory no signed 64-bit number overflows. The loop runs once for the entry and once for each
candidate of each word that is marked in the end. -/
theorem walk_ends_in_bounds (words : Array Word) (entry : Nat) (load : UInt16) :
    (∀ k, InBounds words entry load (walkAfter words entry load k)) ∧
    (∀ k l, k ≤ l → ∀ i, (walkAfter words entry load k).Marked i →
      (walkAfter words entry load l).Marked i) ∧
    (∀ i : Fin words.size, 1 ≤ (successors words load i).length ∧
      (successors words load i).length ≤ 128) ∧
    (2 * words.size < 2 ^ 63 →
      (∀ k, ∀ c ∈ (walkAfter words entry load k).pending, signed? c = some c) ∧
      ∀ i w, words[i]? = some w → Successors.of? (Instruction.decode w) i load =
        some (Successors.of (Instruction.decode w) i load)) ∧
    ∃ iterations : Nat,
      (∀ k, (walkAfter words entry load k).pending = [] ↔ iterations ≤ k) ∧
      walkAfter words entry load iterations = finalWalk words entry load ∧
      iterations = (if entry < 2 ^ 63 then
          1 + ∑ i : Fin words.size, if (analyze words entry load).isReached i then
            (successors words load i).length else 0
        else 0) ∧
      iterations ≤ 1 + 128 * words.size := by
  have hend : ∀ k, (walkAfter words entry load k).pending = [] ↔
      Walk.brought (successors words load) (entries entry) (finalWalk words entry load) ≤ k :=
    Walk.pending_after_eq_nil_iff
  refine ⟨inBounds_walkAfter words entry load, ?_, ?_, ?_, _, hend, ?_,
    brought_finalWalk words entry load, ?_⟩
  · intro k l hkl i hi
    exact Walk.Marked.after_le hkl hi
  · intro i
    exact ⟨length_successors_pos i.isLt, length_successors_le words load i⟩
  · intro hmemory
    refine ⟨fun k c hc => signed?_of_mem_pending hmemory hc, fun i w hw => ?_⟩
    obtain ⟨hi, -⟩ := Array.getElem?_eq_some_iff.mp hw
    exact Successors.of?_eq _ (by omega) load
  · exact Walk.after_eq_run ((hend _).mpr (Nat.le_refl _))
  · rw [brought_finalWalk]
    split_ifs with hentry
    · exact Nat.add_le_add_left (sum_if_le fun i => length_successors_le words load i) 1
    · exact Nat.zero_le _

/-- An indexed jump at the start of two words, with a jump back to it behind it. Its span is 128
candidates high on the stack; one of them is the jump back, and it takes 130 iterations until
the stack is empty. -/
theorem walk_ends_in_bounds_around_span :
    2 * (#[0xB200, 0x1200] : Array Word).size < 2 ^ 63 ∧
      127 ∈ (walkAfter #[0xB200, 0x1200] 0 0x200 1).pending ∧ signed? 127 = some 127 ∧
      (walkAfter #[0xB200, 0x1200] 0 0x200 1).pending.length = 1 + 127 ∧
      (walkAfter #[0xB200, 0x1200] 0 0x200 1).Marked 0 ∧
      (walkAfter #[0xB200, 0x1200] 0 0x200 130).Marked 0 ∧
      (walkAfter #[0xB200, 0x1200] 0 0x200 129).pending ≠ [] ∧
      (walkAfter #[0xB200, 0x1200] 0 0x200 130).pending = [] := by
  obtain ⟨-, hstay, -, hfits, iterations, hend, -, heq, -⟩ :=
    walk_ends_in_bounds #[0xB200, 0x1200] 0 0x200
  have hcount : iterations = 130 := heq.trans (by decide +kernel)
  have hmarked : (walkAfter #[0xB200, 0x1200] 0 0x200 1).Marked 0 := by decide
  have hmem : 127 ∈ (walkAfter #[0xB200, 0x1200] 0 0x200 1).pending := by decide
  refine ⟨by decide, hmem, (hfits (by decide)).1 1 127 hmem, by decide +kernel, hmarked,
    hstay 1 130 (by decide) 0 hmarked, ?_, (hend 130).mpr (Nat.le_of_eq hcount)⟩
  intro h
  have hle := (hend 129).mp h
  omega

end Reachability

end Chip8
