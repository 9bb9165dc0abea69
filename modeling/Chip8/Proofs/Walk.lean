import Chip8.Walk
import Mathlib.Data.List.Nodup
import Mathlib.Logic.Relation

/-!
# What a walk marks

A candidate is called for if the walk starts from it, or if an index that is
already marked leads to it. At every moment the candidates on the stack are
called for, and an index that is called for is on the stack unless it is marked.
When the stack is empty, the marked indices are therefore closed under
successors, and as each of them was marked for the sake of a path, they are
exactly the indices that paths lead to.
-/

namespace Chip8.Walk

variable {successors : Nat → List Int} {roots : List Int} {size : Nat}

/-! ## Moves -/

/-- All that a step can do while candidates are left. -/
inductive Move (successors : Nat → List Int) : Walk → Walk → Prop where
  | drop {reached : Array Bool} {order : Array Nat} {c : Int} {rest : List Int} {dropped : Nat}
      (hc : ¬(0 ≤ c ∧ c.toNat < reached.size)) :
      Move successors ⟨reached, order, c :: rest, dropped⟩ ⟨reached, order, rest, dropped + 1⟩
  | pass {reached : Array Bool} {order : Array Nat} {i : Nat} {rest : List Int} {dropped : Nat}
      (hi : i < reached.size) (h : reached[i] = true) :
      Move successors ⟨reached, order, (i : Int) :: rest, dropped⟩ ⟨reached, order, rest, dropped⟩
  | mark {reached : Array Bool} {order : Array Nat} {i : Nat} {rest : List Int} {dropped : Nat}
      (hi : i < reached.size) (h : reached[i] = false) :
      Move successors ⟨reached, order, (i : Int) :: rest, dropped⟩
        ⟨reached.set i true, order.push i, successors i ++ rest, dropped⟩

theorem move_step {w : Walk} (h : w.pending ≠ []) : Move successors w (w.step successors) := by
  obtain ⟨reached, order, pending, dropped⟩ := w
  cases pending with
  | nil => exact absurd rfl h
  | cons c rest =>
      by_cases hc : 0 ≤ c ∧ c.toNat < reached.size
      · obtain ⟨i, rfl⟩ := Int.eq_ofNat_of_zero_le hc.1
        have hi : i < reached.size := hc.2
        cases hr : reached[i] with
        | true =>
            rw [step_reached successors hi hr]
            exact .pass hi hr
        | false =>
            rw [step_unreached successors hi hr]
            exact .mark hi hr
      · rw [step_outside successors hc]
        exact .drop hc

/-- The step is the only move there is. -/
theorem Move.step_eq {w w' : Walk} (hmove : Move successors w w') : w.step successors = w' := by
  cases hmove with
  | drop hc => exact step_outside successors hc
  | pass hi h => exact step_reached successors hi h
  | mark hi h => exact step_unreached successors hi h

/-- A run is a sequence of moves. -/
theorem moves_run (successors : Nat → List Int) (w : Walk) :
    Relation.ReflTransGen (Move successors) w (run successors w) := by
  fun_induction run successors w with
  | case1 w h => exact .refl
  | case2 w h _ ih => exact .head (move_step h) ih

/-- What every move keeps, a run keeps. -/
theorem run_of_moves {P : Walk → Prop}
    (hmove : ∀ {w w' : Walk}, Move successors w w' → P w → P w') {w : Walk} (h : P w) :
    P (run successors w) := by
  suffices gen : ∀ w', Relation.ReflTransGen (Move successors) w w' → P w' from
    gen _ (moves_run successors w)
  intro w' hrun
  induction hrun with
  | refl => exact h
  | tail _ hstep ih => exact hmove hstep ih

/-! ## Marks -/

/-- The walk has marked the index. -/
def Marked (w : Walk) (i : Nat) : Prop := w.reached[i]? = some true

instance (w : Walk) (i : Nat) : Decidable (w.Marked i) := inferInstanceAs (Decidable (_ = _))

theorem Marked.lt_size {w : Walk} {i : Nat} (h : w.Marked i) : i < w.reached.size := by
  obtain ⟨hi, -⟩ := Array.getElem?_eq_some_iff.mp h
  exact hi

theorem not_marked_of_getElem {w : Walk} {i : Nat} (hi : i < w.reached.size)
    (h : w.reached[i] = false) : ¬w.Marked i := by
  intro hm
  obtain ⟨_, htrue⟩ := Array.getElem?_eq_some_iff.mp hm
  rw [h] at htrue
  cases htrue

theorem not_marked_start (pending : List Int) (i : Nat) : ¬(start size pending).Marked i := by
  intro h
  obtain ⟨_, htrue⟩ := Array.getElem?_eq_some_iff.mp h
  simp [start] at htrue

/-- Marking an index marks that index and no other. -/
theorem marked_set_iff {w w' : Walk} {i : Nat} (hi : i < w.reached.size)
    (h : w'.reached = w.reached.set i true) (j : Nat) : w'.Marked j ↔ j = i ∨ w.Marked j := by
  unfold Marked
  rw [h, Array.getElem?_set]
  by_cases hij : i = j
  · subst hij
    simp
  · simp [hij, Ne.symm hij]

/-- Marks are never undone. -/
theorem Move.marked_mono {w w' : Walk} (hmove : Move successors w w') {i : Nat}
    (h : w.Marked i) : w'.Marked i := by
  cases hmove with
  | drop => exact h
  | pass => exact h
  | mark hi => exact (marked_set_iff hi rfl i).mpr (Or.inr h)

/-! ## Candidates and paths -/

/-- Candidates for which there is a reason: the walk starts from them, or a marked
index leads to them. -/
def Called (successors : Nat → List Int) (roots : List Int) (w : Walk) (c : Int) : Prop :=
  c ∈ roots ∨ ∃ i, w.Marked i ∧ c ∈ successors i

/-- Indices below `size` that a path leads to from a root without leaving the graph. -/
inductive Reaches (successors : Nat → List Int) (roots : List Int) (size : Nat) : Nat → Prop where
  | root {i : Nat} (h : (i : Int) ∈ roots) (hi : i < size) : Reaches successors roots size i
  | next {i j : Nat} (h : Reaches successors roots size i) (hij : (j : Int) ∈ successors i)
      (hj : j < size) : Reaches successors roots size j

theorem Called.mono {w w' : Walk} (hmarks : ∀ i, w.Marked i → w'.Marked i) {c : Int}
    (h : Called successors roots w c) : Called successors roots w' c := by
  rcases h with hroot | ⟨i, hi, hc⟩
  · exact Or.inl hroot
  · exact Or.inr ⟨i, hmarks i hi, hc⟩

/-- A new mark calls for the successors of its index and for nothing else. -/
theorem called_of_marked_iff {w w' : Walk} {i : Nat}
    (hmarked : ∀ j, w'.Marked j ↔ j = i ∨ w.Marked j) {c : Int}
    (hc : Called successors roots w' c) : Called successors roots w c ∨ c ∈ successors i := by
  rcases hc with hroot | ⟨j, hj, hcj⟩
  · exact Or.inl (Or.inl hroot)
  · rcases (hmarked j).mp hj with rfl | hj
    · exact Or.inr hcj
    · exact Or.inl (Or.inr ⟨j, hj, hcj⟩)

theorem reaches_of_called {w : Walk} (hmarks : ∀ i, w.Marked i → Reaches successors roots size i)
    {i : Nat} (hi : i < size) (h : Called successors roots w i) :
    Reaches successors roots size i := by
  rcases h with hroot | ⟨j, hj, hij⟩
  · exact .root hroot hi
  · exact .next (hmarks j hj) hij hi

/-! ## The invariant -/

/-- What holds of a walk of `size` indices from `roots` at every moment. -/
structure Invariant (successors : Nat → List Int) (roots : List Int) (size : Nat)
    (w : Walk) : Prop where
  size_reached : w.reached.size = size
  called_of_mem : ∀ c ∈ w.pending, Called successors roots w c
  mem_of_called : ∀ i < size, Called successors roots w i → w.Marked i ∨ (i : Int) ∈ w.pending
  reaches : ∀ i, w.Marked i → Reaches successors roots size i
  nodup : w.order.toList.Nodup
  mem_order : ∀ i, i ∈ w.order ↔ w.Marked i
  count : w.reached.count true = w.order.size

theorem invariant_start (successors : Nat → List Int) (roots : List Int) (size : Nat) :
    Invariant successors roots size (start size roots) where
  size_reached := by simp [start]
  called_of_mem := fun c hc => Or.inl hc
  mem_of_called := by
    rintro i - (hroot | ⟨j, hj, -⟩)
    · exact Or.inr hroot
    · exact absurd hj (not_marked_start roots j)
  reaches := fun i h => absurd h (not_marked_start roots i)
  nodup := by simp [start]
  mem_order := fun i => by simpa [start] using not_marked_start roots i
  count := by simp [start, Array.count_replicate]

/-- A candidate may leave the stack without a mark if it is no unmarked index. -/
theorem Invariant.skip {reached : Array Bool} {order : Array Nat} {c : Int} {rest : List Int}
    {dropped dropped' : Nat}
    (h : Invariant successors roots size ⟨reached, order, c :: rest, dropped⟩)
    (hc : ∀ i < size, c = i → reached[i]? = some true) :
    Invariant successors roots size ⟨reached, order, rest, dropped'⟩ where
  size_reached := h.size_reached
  called_of_mem := fun d hd => h.called_of_mem d (List.mem_cons_of_mem c hd)
  mem_of_called := by
    intro i hi hcalled
    rcases h.mem_of_called i hi hcalled with hm | hp
    · exact Or.inl hm
    · rcases List.mem_cons.mp hp with heq | hp
      · exact Or.inl (hc i hi heq.symm)
      · exact Or.inr hp
  reaches := h.reaches
  nodup := h.nodup
  mem_order := h.mem_order
  count := h.count

/-- A new mark brings the successors of its index onto the stack, and these are all
the candidates that it calls for. -/
theorem Invariant.mark {reached : Array Bool} {order : Array Nat} {i : Nat} {rest : List Int}
    {dropped : Nat} (h : Invariant successors roots size ⟨reached, order, (i : Int) :: rest, dropped⟩)
    (hi : i < reached.size) (hfalse : reached[i] = false) :
    Invariant successors roots size
      ⟨reached.set i true, order.push i, successors i ++ rest, dropped⟩ := by
  have hmarked : ∀ j,
      Marked ⟨reached.set i true, order.push i, successors i ++ rest, dropped⟩ j ↔
        j = i ∨ Marked ⟨reached, order, (i : Int) :: rest, dropped⟩ j := marked_set_iff hi rfl
  have hnew : ¬Marked ⟨reached, order, (i : Int) :: rest, dropped⟩ i :=
    not_marked_of_getElem hi hfalse
  refine ⟨?_, ?_, ?_, ?_, ?_, ?_, ?_⟩
  · rw [Array.size_set]
    exact h.size_reached
  · intro c hc
    rcases List.mem_append.mp hc with hc | hc
    · exact Or.inr ⟨i, (hmarked i).mpr (Or.inl rfl), hc⟩
    · have hold := h.called_of_mem c (List.mem_cons_of_mem _ hc)
      exact hold.mono fun j hj => (hmarked j).mpr (Or.inr hj)
  · intro j hj hcalled
    rw [hmarked, List.mem_append]
    rcases called_of_marked_iff hmarked hcalled with hold | hsucc
    · rcases h.mem_of_called j hj hold with hm | hp
      · exact Or.inl (Or.inr hm)
      · rcases List.mem_cons.mp hp with heq | hp
        · exact Or.inl (Or.inl (Int.ofNat_inj.mp heq))
        · exact Or.inr (Or.inr hp)
    · exact Or.inr (Or.inl hsucc)
  · intro j hj
    rcases (hmarked j).mp hj with rfl | hj
    · have hsize : j < size := h.size_reached ▸ hi
      exact reaches_of_called h.reaches hsize (h.called_of_mem j List.mem_cons_self)
    · exact h.reaches j hj
  · -- the order stays free of repetitions because the index had no mark
    rw [Array.toList_push]
    refine List.nodup_append.mpr ⟨h.nodup, List.nodup_singleton i, ?_⟩
    rintro j hj _ hj' rfl
    cases List.mem_singleton.mp hj'
    exact hnew ((h.mem_order i).mp (Array.mem_toList_iff.mp hj))
  · intro j
    rw [Array.mem_push, hmarked, ← h.mem_order]
    exact or_comm
  · have hcount : reached.count true = order.size := h.count
    rw [Array.count_set, Array.size_push, hcount, hfalse]
    simp

theorem Invariant.move {w w' : Walk} (hmove : Move successors w w')
    (h : Invariant successors roots size w) : Invariant successors roots size w' := by
  cases hmove with
  | drop hc =>
      apply h.skip
      rintro i hi rfl
      exact absurd ⟨Int.natCast_nonneg i, h.size_reached ▸ hi⟩ hc
  | pass hi hr =>
      apply h.skip
      intro j _ hij
      rw [← Int.ofNat_inj.mp hij]
      exact Array.getElem?_eq_some_iff.mpr ⟨hi, hr⟩
  | mark hi hr => exact h.mark hi hr

theorem invariant_run (successors : Nat → List Int) (roots : List Int) (size : Nat) :
    Invariant successors roots size (run successors (start size roots)) :=
  run_of_moves (fun hmove h => h.move hmove) (invariant_start successors roots size)

/-- A finished walk has marked what it was called for. -/
theorem Invariant.marked_iff {w : Walk} (h : Invariant successors roots size w)
    (hend : w.pending = []) (i : Nat) : w.Marked i ↔ Reaches successors roots size i := by
  have hclosed : ∀ i < size, Called successors roots w i → w.Marked i := by
    intro i hi hcalled
    rcases h.mem_of_called i hi hcalled with hm | hp
    · exact hm
    · rw [hend] at hp
      cases hp
  constructor
  · exact h.reaches i
  · intro hpath
    induction hpath with
    | root hroot hi => exact hclosed _ hi (Or.inl hroot)
    | next _ hij hj ih => exact hclosed _ hj (Or.inr ⟨_, ih, hij⟩)

/-- A walk marks exactly the indices that paths from its roots lead to. -/
theorem marked_run_iff (successors : Nat → List Int) (roots : List Int) (size i : Nat) :
    (run successors (start size roots)).Marked i ↔ Reaches successors roots size i :=
  (invariant_run successors roots size).marked_iff (pending_run successors _) i

end Chip8.Walk
