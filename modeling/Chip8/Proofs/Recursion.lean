import Chip8.Proofs.Walk

/-!
# The recursive walk

Depth-first search is usually written as a procedure that calls itself: a visit to
an unmarked index marks it and then visits its successors one after the other. The
walk with a stack does the same. Between the moment a candidate comes to the top
of the stack and the moment the stack below it is uncovered, it makes the marks,
in the order, that a visit to the candidate makes. This holds whatever lies below,
and although the stack may hold an index many times over.
-/

namespace Chip8

/-- What a visit changes: the marks and the order in which they were made. -/
structure Marking where
  reached : Array Bool
  order : Array Nat
deriving DecidableEq, Repr

namespace Marking

def blank (size : Nat) : Marking := ⟨Array.replicate size false, #[]⟩

/-- The candidate is an index of the graph and has no mark yet. -/
def Fresh (m : Marking) (c : Int) : Prop := 0 ≤ c ∧ m.reached[c.toNat]? = some false

instance (m : Marking) (c : Int) : Decidable (m.Fresh c) := inferInstanceAs (Decidable (_ ∧ _))

def mark (m : Marking) (i : Nat) : Marking := ⟨m.reached.setIfInBounds i true, m.order.push i⟩

def unmarked (m : Marking) : Nat := m.reached.count false

theorem unmarked_mark_lt {m : Marking} {c : Int} (h : m.Fresh c) :
    (m.mark c.toNat).unmarked < m.unmarked := by
  obtain ⟨hi, hfalse⟩ := Array.getElem?_eq_some_iff.mp h.2
  have hpos : 0 < m.unmarked :=
    Array.count_pos_iff.mpr (hfalse ▸ Array.getElem_mem hi)
  have hset : (m.mark c.toNat).unmarked = m.unmarked - 1 := by
    rw [unmarked, mark, Array.setIfInBounds, dif_pos hi, Array.count_set, hfalse]
    rfl
  omega

end Marking

namespace Walk

variable {successors : Nat → List Int}

/-! ## Visits -/

-- A visit is called for the successors one after the other, each time on the marking
-- that the one before left. It ends because no call takes a mark away, and so the
-- result carries that fact along.
mutual
def descend (successors : Nat → List Int) (m : Marking) (c : Int) :
    {m' : Marking // m'.unmarked ≤ m.unmarked} :=
  if h : m.Fresh c then
    have hlt := Marking.unmarked_mark_lt h
    let after := descendAll successors (m.mark c.toNat) (successors c.toNat)
    ⟨after.1, Nat.le_trans after.2 (Nat.le_of_lt hlt)⟩
  else ⟨m, Nat.le_refl _⟩
termination_by (m.unmarked, 0)

def descendAll (successors : Nat → List Int) (m : Marking) :
    (candidates : List Int) → {m' : Marking // m'.unmarked ≤ m.unmarked}
  | [] => ⟨m, Nat.le_refl _⟩
  | c :: rest =>
    let first := descend successors m c
    have hle := first.2
    let after := descendAll successors first.1 rest
    ⟨after.1, Nat.le_trans after.2 hle⟩
termination_by candidates => (m.unmarked, candidates.length)
decreasing_by
  · exact Prod.Lex.right _ (Nat.succ_pos _)
  · rcases Nat.lt_or_eq_of_le hle with hlt | heq
    · exact Prod.Lex.left _ _ hlt
    · rw [heq]
      exact Prod.Lex.right _ (Nat.lt_succ_self _)
end

/-- A candidate out of range or marked before is left alone; any other is marked, and
its successors are visited in their order. -/
def visit (successors : Nat → List Int) (m : Marking) (c : Int) : Marking :=
  (descend successors m c).1

theorem descendAll_eq_foldl (successors : Nat → List Int) (m : Marking) (candidates : List Int) :
    (descendAll successors m candidates).1 = candidates.foldl (visit successors) m := by
  induction candidates generalizing m with
  | nil => rw [descendAll, List.foldl_nil]
  | cons c rest ih =>
      rw [descendAll, List.foldl_cons, ← ih]
      rfl

theorem visit_of_fresh {m : Marking} {c : Int} (h : m.Fresh c) :
    visit successors m c = (successors c.toNat).foldl (visit successors) (m.mark c.toNat) := by
  rw [visit, descend, dif_pos h, ← descendAll_eq_foldl]

theorem visit_of_not_fresh {m : Marking} {c : Int} (h : ¬m.Fresh c) :
    visit successors m c = m := by
  rw [visit, descend, dif_neg h]

/-- The recursive equation of the procedure. -/
theorem visit_eq (successors : Nat → List Int) (m : Marking) (c : Int) :
    visit successors m c =
      if m.Fresh c then (successors c.toNat).foldl (visit successors) (m.mark c.toNat) else m := by
  split_ifs with h
  · exact visit_of_fresh h
  · exact visit_of_not_fresh h

/-- No other function satisfies the equation, so it determines the procedure. -/
theorem eq_visit_of_equation {f : Marking → Int → Marking}
    (hf : ∀ m c, f m c = if m.Fresh c then (successors c.toNat).foldl f (m.mark c.toNat) else m) :
    f = visit successors := by
  obtain ⟨hvisit, -⟩ := descend.mutual_induct successors
    (fun m c => f m c = visit successors m c)
    (fun m candidates => candidates.foldl f m = candidates.foldl (visit successors) m)
    (by
      intro m c h _ ih
      rw [hf, if_pos h, ih, visit_of_fresh h])
    (by
      intro m c h
      rw [hf, if_neg h, visit_of_not_fresh h])
    (fun _ => rfl)
    (by
      intro m c candidates first _ ihFirst ihRest _
      rw [List.foldl_cons, List.foldl_cons, ihFirst]
      exact ihRest)
  funext m c
  exact hvisit m c

/-! ## The stack and the calls -/

def marking (w : Walk) : Marking := ⟨w.reached, w.order⟩

/-- The walk whose marks are these. -/
def ofMarking (m : Marking) (pending : List Int) (dropped : Nat) : Walk :=
  ⟨m.reached, m.order, pending, dropped⟩

/-- From one walk moves lead to the other, which has these marks and this stack. -/
def Uncovers (successors : Nat → List Int) (w : Walk) (m : Marking) (rest : List Int) : Prop :=
  ∃ dropped, Relation.ReflTransGen (Move successors) w (ofMarking m rest dropped)

theorem uncovers_of_not_fresh {m : Marking} {c : Int} (h : ¬m.Fresh c) (rest : List Int)
    (dropped : Nat) : Uncovers successors (ofMarking m (c :: rest) dropped) m rest := by
  by_cases hc : 0 ≤ c ∧ c.toNat < m.reached.size
  · obtain ⟨i, rfl⟩ := Int.eq_ofNat_of_zero_le hc.1
    have hi : i < m.reached.size := hc.2
    have htrue : m.reached[i] = true := by
      by_contra hne
      refine h ⟨hc.1, Array.getElem?_eq_some_iff.mpr ⟨hi, ?_⟩⟩
      simpa using hne
    exact ⟨dropped, .single (.pass hi htrue)⟩
  · exact ⟨dropped + 1, .single (.drop hc)⟩

theorem move_of_fresh {m : Marking} {c : Int} (h : m.Fresh c) (rest : List Int) (dropped : Nat) :
    Move successors (ofMarking m (c :: rest) dropped)
      (ofMarking (m.mark c.toNat) (successors c.toNat ++ rest) dropped) := by
  obtain ⟨hc, hget⟩ := h
  obtain ⟨i, rfl⟩ := Int.eq_ofNat_of_zero_le hc
  obtain ⟨hi, hfalse⟩ : ∃ hi : i < m.reached.size, m.reached[i] = false :=
    Array.getElem?_eq_some_iff.mp hget
  have hset : m.mark i = ⟨m.reached.set i true, m.order.push i⟩ := by
    rw [Marking.mark, Array.setIfInBounds, dif_pos hi]
  change Move successors _ (ofMarking (m.mark i) (successors i ++ rest) dropped)
  rw [hset]
  exact .mark hi hfalse

/-- The simulation: while the candidates of a list are taken off the stack, the walk
makes the marks that visits to them make. The induction is on the calls. -/
theorem uncovers_visits (successors : Nat → List Int) :
    (∀ (m : Marking) (c : Int) (rest : List Int) (dropped : Nat),
      Uncovers successors (ofMarking m (c :: rest) dropped) (visit successors m c) rest) ∧
    ∀ (m : Marking) (candidates rest : List Int) (dropped : Nat),
      Uncovers successors (ofMarking m (candidates ++ rest) dropped)
        (candidates.foldl (visit successors) m) rest := by
  apply descend.mutual_induct successors
    (fun m c => ∀ (rest : List Int) (dropped : Nat),
      Uncovers successors (ofMarking m (c :: rest) dropped) (visit successors m c) rest)
    (fun m candidates => ∀ (rest : List Int) (dropped : Nat),
      Uncovers successors (ofMarking m (candidates ++ rest) dropped)
        (candidates.foldl (visit successors) m) rest)
  · -- the mark puts the successors in front of the rest, where the call visits them
    intro m c h _ ih rest dropped
    rw [visit_of_fresh h]
    obtain ⟨dropped', hmoves⟩ := ih rest dropped
    exact ⟨dropped', .head (move_of_fresh h rest dropped) hmoves⟩
  · intro m c h rest dropped
    rw [visit_of_not_fresh h]
    exact uncovers_of_not_fresh h rest dropped
  · intro m rest dropped
    exact ⟨dropped, .refl⟩
  · -- below the first candidate lie the others, and they are tested only when the visit
    -- to it is over, as in the recursion
    intro m c candidates first _ ihFirst ihRest _ rest dropped
    obtain ⟨dropped₁, hfirst⟩ := ihFirst (candidates ++ rest) dropped
    obtain ⟨dropped₂, hrest⟩ := ihRest rest dropped₁
    rw [List.foldl_cons]
    exact ⟨dropped₂, hfirst.trans hrest⟩

/-- Moves do not change where a run ends. -/
theorem run_eq_of_moves {w w' : Walk} (h : Relation.ReflTransGen (Move successors) w w') :
    run successors w' = run successors w := by
  induction h with
  | refl => rfl
  | tail _ hmove ih =>
      rw [← ih, ← hmove.step_eq, run_step]

/-- A run from one candidate ends with the marks and the order of a visit to it. -/
theorem marking_run_eq_visit (successors : Nat → List Int) (m : Marking) (c : Int) (dropped : Nat) :
    (run successors (ofMarking m [c] dropped)).marking = visit successors m c := by
  obtain ⟨dropped', hmoves⟩ := (uncovers_visits successors).1 m c [] dropped
  rw [← run_eq_of_moves hmoves, run_of_pending_eq_nil successors rfl]
  rfl

end Walk

end Chip8
