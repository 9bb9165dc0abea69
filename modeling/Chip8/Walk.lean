/-!
# Depth-first walks

A walk explores a graph on the indices `0, …, n - 1`. The graph is given by its
successor lists, which may name indices that do not exist. The walk keeps a stack
of candidates still to look at: it takes the first, drops it when it is out of
range, passes over it when it was reached before, and otherwise marks it and puts
its successors in front of the rest. Each step uses up one candidate, of those on
the stack and those still to come, and so the walk ends.
-/

namespace Chip8

structure Walk where
  /-- One mark for each index of the graph. -/
  reached : Array Bool
  /-- The marked indices, in the order in which they were reached. -/
  order : Array Nat
  /-- The candidates still to look at, next one first. -/
  pending : List Int
  /-- How many candidates were out of range. -/
  dropped : Nat
deriving DecidableEq, Repr

namespace Walk

/-- Before the first step nothing is marked. -/
def start (size : Nat) (pending : List Int) : Walk where
  reached := Array.replicate size false
  order := #[]
  pending := pending
  dropped := 0

/-- Deals with the first candidate. A finished walk stays as it is. -/
def step (successors : Nat → List Int) (w : Walk) : Walk :=
  match w with
  | ⟨reached, order, [], dropped⟩ => ⟨reached, order, [], dropped⟩
  | ⟨reached, order, c :: rest, dropped⟩ =>
    if h : 0 ≤ c ∧ c.toNat < reached.size then
      if reached[c.toNat] then ⟨reached, order, rest, dropped⟩
      else ⟨reached.set c.toNat true, order.push c.toNat, successors c.toNat ++ rest, dropped⟩
    else ⟨reached, order, rest, dropped + 1⟩

theorem step_outside (successors : Nat → List Int) {reached : Array Bool} {order : Array Nat}
    {c : Int} {rest : List Int} {dropped : Nat} (h : ¬(0 ≤ c ∧ c.toNat < reached.size)) :
    step successors ⟨reached, order, c :: rest, dropped⟩ =
      ⟨reached, order, rest, dropped + 1⟩ := by
  rw [step, dif_neg h]

theorem step_reached (successors : Nat → List Int) {reached : Array Bool} {order : Array Nat}
    {i : Nat} {rest : List Int} {dropped : Nat} (hi : i < reached.size) (h : reached[i] = true) :
    step successors ⟨reached, order, (i : Int) :: rest, dropped⟩ =
      ⟨reached, order, rest, dropped⟩ := by
  rw [step, dif_pos ⟨Int.natCast_nonneg i, hi⟩]
  exact if_pos h

theorem step_unreached (successors : Nat → List Int) {reached : Array Bool} {order : Array Nat}
    {i : Nat} {rest : List Int} {dropped : Nat} (hi : i < reached.size) (h : reached[i] = false) :
    step successors ⟨reached, order, (i : Int) :: rest, dropped⟩ =
      ⟨reached.set i true, order.push i, successors i ++ rest, dropped⟩ := by
  rw [step, dif_pos ⟨Int.natCast_nonneg i, hi⟩]
  exact if_neg (by simpa using h)

def sumBelow (f : Nat → Nat) : Nat → Nat
  | 0 => 0
  | n + 1 => sumBelow f n + f n

theorem sumBelow_congr {f g : Nat → Nat} {n : Nat} (h : ∀ j < n, f j = g j) :
    sumBelow f n = sumBelow g n := by
  induction n with
  | zero => rfl
  | succ n ih =>
    rw [sumBelow, sumBelow, ih fun j hj => h j (Nat.lt_succ_of_lt hj), h n (Nat.lt_succ_self n)]

theorem sumBelow_eq_add {f g : Nat → Nat} {i d n : Nat} (hi : i < n) (hd : f i = g i + d)
    (h : ∀ j ≠ i, f j = g j) : sumBelow f n = sumBelow g n + d := by
  induction n with
  | zero => omega
  | succ n ih =>
    rw [sumBelow, sumBelow]
    by_cases hn : i = n
    · subst hn
      rw [sumBelow_congr fun j hj => h j (Nat.ne_of_lt hj), hd, Nat.add_assoc]
    · rw [ih (by omega), h n (Ne.symm hn)]
      omega

/-- How many candidates the indices not yet marked would still bring. -/
def unexplored (successors : Nat → List Int) (reached : Array Bool) : Nat :=
  sumBelow (fun i => if reached[i]?.getD false then 0 else (successors i).length) reached.size

/-- The candidates that are left if everything is explored: those on the stack and
those still to come. -/
def remaining (successors : Nat → List Int) (w : Walk) : Nat :=
  w.pending.length + unexplored successors w.reached

/-- Marking an index takes its successors off those still to come. -/
theorem unexplored_set (successors : Nat → List Int) (reached : Array Bool) {i : Nat}
    (hi : i < reached.size) (h : reached[i] = false) :
    unexplored successors reached =
      unexplored successors (reached.set i true) + (successors i).length := by
  unfold unexplored
  rw [Array.size_set]
  apply sumBelow_eq_add hi
  · simp [hi, h]
  · intro j hj
    simp [Ne.symm hj]

/-- A step uses up exactly one candidate. -/
theorem remaining_step (successors : Nat → List Int) (w : Walk) (h : w.pending ≠ []) :
    remaining successors w = remaining successors (w.step successors) + 1 := by
  match w with
  | ⟨reached, order, [], dropped⟩ => exact absurd rfl h
  | ⟨reached, order, c :: rest, dropped⟩ =>
    by_cases hc : 0 ≤ c ∧ c.toNat < reached.size
    · obtain ⟨i, rfl⟩ := Int.eq_ofNat_of_zero_le hc.1
      have hi : i < reached.size := hc.2
      cases hr : reached[i] with
      | true =>
        rw [step_reached successors hi hr]
        simp only [remaining, List.length_cons]
        omega
      | false =>
        rw [step_unreached successors hi hr]
        simp only [remaining, List.length_cons, List.length_append,
          unexplored_set successors reached hi hr]
        omega
    · rw [step_outside successors hc]
      simp only [remaining, List.length_cons]
      omega

/-- Steps until no candidate is left. -/
def run (successors : Nat → List Int) (w : Walk) : Walk :=
  if h : w.pending = [] then w
  else
    have := remaining_step successors w h
    run successors (w.step successors)
termination_by remaining successors w

theorem run_of_pending_eq_nil (successors : Nat → List Int) {w : Walk} (h : w.pending = []) :
    run successors w = w := by
  rw [run, dif_pos h]

theorem run_step (successors : Nat → List Int) (w : Walk) :
    run successors (w.step successors) = run successors w := by
  by_cases h : w.pending = []
  · match w, h with
    | ⟨_, _, [], _⟩, _ => rfl
  · conv => rhs; rw [run, dif_neg h]

/-- A run leaves no candidate. -/
theorem pending_run (successors : Nat → List Int) (w : Walk) :
    (run successors w).pending = [] := by
  fun_induction run successors w with
  | case1 w h => exact h
  | case2 w h _ ih => exact ih

theorem size_reached_step (successors : Nat → List Int) (w : Walk) :
    (w.step successors).reached.size = w.reached.size := by
  match w with
  | ⟨_, _, [], _⟩ => rfl
  | ⟨_, _, _ :: _, _⟩ =>
    simp only [step]
    split
    · split <;> simp
    · rfl

theorem size_reached_run (successors : Nat → List Int) (w : Walk) :
    (run successors w).reached.size = w.reached.size := by
  fun_induction run successors w with
  | case1 w h => rfl
  | case2 w h _ ih => rw [ih, size_reached_step]

end Walk

end Chip8
