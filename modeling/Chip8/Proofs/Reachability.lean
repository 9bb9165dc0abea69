import Chip8.Proofs.ControlFlow
import Chip8.Proofs.Recursion
import Mathlib.Order.Bounds.Basic

/-!
# What the analysis marks

The analysis marks the words that the control-flow graph of the plain words
connects to the entry, in the order in which the recursive procedure visits them.

Indices are signed 64-bit numbers, so an entry from `2 ^ 63` on starts no walk. It
is no index of an image either: memory does not hold that many words.
-/

namespace Chip8.Reachability

variable {words : Array Word} {entry : Nat} {load : UInt16}

/-- Control can go from one word of the image to another one of it. -/
def FlowsTo (words : Array Word) (load : UInt16) (i j : Nat) : Prop :=
  ∃ w, words[i]? = some w ∧ (j : Int) ∈ w.exits load i ∧ j < words.size

theorem flowsTo_iff {i j : Nat} :
    FlowsTo words load i j ↔ (j : Int) ∈ successors words load i ∧ j < words.size := by
  rw [mem_successors_iff]
  constructor
  · rintro ⟨w, hw, hj, hlt⟩
    exact ⟨⟨w, hw, hj⟩, hlt⟩
  · rintro ⟨⟨w, hw, hj⟩, hlt⟩
    exact ⟨w, hw, hj, hlt⟩

theorem entries_of_lt (h : entry < 2 ^ 63) : entries entry = [(entry : Int)] :=
  if_pos (by omega)

theorem entries_of_ge (h : ¬entry < 2 ^ 63) : entries entry = [] :=
  if_neg (by omega)

theorem mem_entries_iff {c : Int} : c ∈ entries entry ↔ c = entry ∧ entry < 2 ^ 63 := by
  by_cases h : entry < 2 ^ 63
  · rw [entries_of_lt h, List.mem_singleton]
    exact ⟨fun hc => ⟨hc, h⟩, fun hc => hc.1⟩
  · rw [entries_of_ge h]
    exact ⟨fun hc => absurd hc List.not_mem_nil, fun hc => absurd hc.2 h⟩

/-- A path of the walk is a chain of words. -/
theorem reaches_iff {i : Nat} :
    Walk.Reaches (successors words load) (entries entry) words.size i ↔
      entry < 2 ^ 63 ∧ entry < words.size ∧
        Relation.ReflTransGen (FlowsTo words load) entry i := by
  constructor
  · intro h
    induction h with
    | root hroot hi =>
        obtain ⟨heq, hlt⟩ := mem_entries_iff.mp hroot
        cases Int.ofNat_inj.mp heq
        exact ⟨hlt, hi, .refl⟩
    | next _ hij hj ih =>
        exact ⟨ih.1, ih.2.1, ih.2.2.tail (flowsTo_iff.mpr ⟨hij, hj⟩)⟩
  · rintro ⟨hlt, hentry, hchain⟩
    induction hchain with
    | refl => exact .root (mem_entries_iff.mpr ⟨rfl, hlt⟩) hentry
    | tail _ hflow ih =>
        obtain ⟨hij, hj⟩ := flowsTo_iff.mp hflow
        exact .next ih hij hj

theorem invariant_finalWalk (words : Array Word) (entry : Nat) (load : UInt16) :
    Walk.Invariant (successors words load) (entries entry) words.size
      (finalWalk words entry load) :=
  Walk.invariant_run (successors words load) (entries entry) words.size

theorem isReached_analyze_iff_marked {i : Nat} :
    (analyze words entry load).isReached i = true ↔ (finalWalk words entry load).Marked i := by
  rw [isReached, analyze, Walk.Marked]
  cases (finalWalk words entry load).reached[i]? with
  | none => simp
  | some b => simp

theorem isReached_analyze_iff_reaches {i : Nat} :
    (analyze words entry load).isReached i = true ↔
      Walk.Reaches (successors words load) (entries entry) words.size i :=
  isReached_analyze_iff_marked.trans (Walk.marked_run_iff _ _ _ _)

/-- The entry of an image is marked. -/
theorem isReached_entry (hindex : entry < 2 ^ 63) (hentry : entry < words.size) :
    (analyze words entry load).isReached entry = true :=
  isReached_analyze_iff_reaches.mpr (.root (mem_entries_iff.mpr ⟨rfl, hindex⟩) hentry)

/-- Marks are closed under control flow. -/
theorem isReached_of_mem_successors {i j : Nat}
    (hi : (analyze words entry load).isReached i = true)
    (hij : (j : Int) ∈ successors words load i) (hj : j < words.size) :
    (analyze words entry load).isReached j = true :=
  isReached_analyze_iff_reaches.mpr (.next (isReached_analyze_iff_reaches.mp hi) hij hj)

theorem isReached_lt_size {i : Nat} (h : (analyze words entry load).isReached i = true) :
    i < words.size := by
  have hlt := (isReached_analyze_iff_marked.mp h).lt_size
  rw [(invariant_finalWalk words entry load).size_reached] at hlt
  exact hlt

/-- Marks are the least set with these two closure properties. -/
theorem mem_of_isReached {s : Set Nat}
    (hentry : entry < 2 ^ 63 → entry < words.size → entry ∈ s)
    (hclosed : ∀ i ∈ s, ∀ j, FlowsTo words load i j → j ∈ s) {i : Nat}
    (h : (analyze words entry load).isReached i = true) : i ∈ s := by
  induction isReached_analyze_iff_reaches.mp h with
  | root hroot hi =>
      obtain ⟨heq, hlt⟩ := mem_entries_iff.mp hroot
      cases Int.ofNat_inj.mp heq
      exact hentry hlt hi
  | next hpath hij hj ih =>
      exact hclosed _ (ih (isReached_analyze_iff_reaches.mpr hpath)) _ (flowsTo_iff.mpr ⟨hij, hj⟩)

/-- The analysis knows the words by their number and their successors only. -/
theorem analyze_congr {words' : Array Word} {load' : UInt16} (hsize : words.size = words'.size)
    (hsuccessors : successors words load = successors words' load') (entry : Nat) :
    analyze words entry load = analyze words' entry load' := by
  rw [analyze, analyze, finalWalk, finalWalk, startWalk, startWalk, hsuccessors, hsize]

/-! ## The graph of an image -/

/-- The analysis marks the words that a chain of words leads to from the entry. For
an image that fits in memory these are the least set that contains the entry and is
closed under control flow. The order of visits lists each of them once. -/
theorem analyze_marks_graph (words : Array Word) (entry : Nat) (load : UInt16) :
    (∀ i, (analyze words entry load).isReached i = true ↔
      entry < 2 ^ 63 ∧ entry < words.size ∧ i < words.size ∧
        Relation.ReflTransGen (FlowsTo words load) entry i) ∧
    (words.size ≤ 2 ^ 63 →
      (∀ i, (analyze words entry load).isReached i = true ↔
        entry < words.size ∧ i < words.size ∧
          Relation.ReflTransGen (FlowsTo words load) entry i) ∧
      IsLeast {s : Set Nat | (entry < words.size → entry ∈ s) ∧
          ∀ i ∈ s, ∀ j, FlowsTo words load i j → j ∈ s}
        {i | (analyze words entry load).isReached i = true}) ∧
    (analyze words entry load).reached.size = words.size ∧
    (analyze words entry load).order.toList.Nodup ∧
    (∀ i, i ∈ (analyze words entry load).order ↔
      (analyze words entry load).isReached i = true) ∧
    (analyze words entry load).count = (analyze words entry load).reached.count true := by
  have hinv := invariant_finalWalk words entry load
  have hmarks : ∀ i, (analyze words entry load).isReached i = true ↔
      entry < 2 ^ 63 ∧ entry < words.size ∧ i < words.size ∧
        Relation.ReflTransGen (FlowsTo words load) entry i := by
    intro i
    constructor
    · intro h
      obtain ⟨hindex, hentry, hchain⟩ := reaches_iff.mp (isReached_analyze_iff_reaches.mp h)
      exact ⟨hindex, hentry, isReached_lt_size h, hchain⟩
    · rintro ⟨hindex, hentry, -, hchain⟩
      exact isReached_analyze_iff_reaches.mpr (reaches_iff.mpr ⟨hindex, hentry, hchain⟩)
  refine ⟨hmarks, ?_, hinv.size_reached, hinv.nodup, ?_, hinv.count.symm⟩
  · -- with at most 2 ^ 63 words every index of the image is a signed 64-bit number
    intro hsize
    have hindex : entry < words.size → entry < 2 ^ 63 := fun h => Nat.lt_of_lt_of_le h hsize
    refine ⟨fun i => (hmarks i).trans ⟨fun h => h.2, fun h => ⟨hindex h.1, h⟩⟩, ⟨?_, ?_⟩, ?_⟩
    · exact fun h => isReached_entry (hindex h) h
    · intro i hi j hij
      obtain ⟨hsucc, hj⟩ := flowsTo_iff.mp hij
      exact isReached_of_mem_successors hi hsucc hj
    · rintro s ⟨hentry, hclosed⟩ i hi
      exact mem_of_isReached (fun _ => hentry) hclosed hi
  · intro i
    exact (hinv.mem_order i).trans isReached_analyze_iff_marked.symm

/-- Two jumps that lead to each other are code, and the word between them is not. -/
theorem analyze_marks_two_jumps :
    (#[0x1204, 0xFFFF, 0x1200] : Array Word).size ≤ 2 ^ 63 ∧
      (analyze #[0x1204, 0xFFFF, 0x1200] 0 0x200).isReached 2 = true ∧
      (analyze #[0x1204, 0xFFFF, 0x1200] 0 0x200).isReached 1 = false := by
  obtain ⟨-, hfits, -⟩ := analyze_marks_graph #[0x1204, 0xFFFF, 0x1200] 0 0x200
  obtain ⟨hmarks, -, hleast⟩ := hfits (by decide)
  refine ⟨by decide, ?_, ?_⟩
  · exact (hmarks 2).mpr ⟨by decide, by decide, .single ⟨0x1204, rfl, by decide, by decide⟩⟩
  · have hjumps : {i | (analyze #[0x1204, 0xFFFF, 0x1200] 0 0x200).isReached i = true} ≤
        {i | i = 0 ∨ i = 2} := by
      refine hleast ⟨fun _ => Or.inl rfl, ?_⟩
      rintro i (rfl | rfl) j ⟨w, hw, hj, -⟩
      · cases hw
        exact Or.inr (Int.ofNat_inj.mp (List.mem_singleton.mp hj))
      · cases hw
        exact Or.inl (Int.ofNat_inj.mp (List.mem_singleton.mp hj))
    rw [Bool.eq_false_iff]
    intro h
    rcases hjumps h with heq | heq
    · cases heq
    · cases heq

/-! ## The order of visits -/

theorem marking_finalWalk (words : Array Word) (entry : Nat) (load : UInt16) :
    (finalWalk words entry load).marking =
      if entry < 2 ^ 63 then
        Walk.visit (successors words load) (.blank words.size) entry
      else .blank words.size := by
  unfold finalWalk startWalk
  split_ifs with h
  · rw [entries_of_lt h]
    exact Walk.marking_run_eq_visit (successors words load) (.blank words.size) entry 0
  · rw [entries_of_ge h, Walk.run_of_pending_eq_nil _ rfl]
    rfl

theorem successors_eq_elim (words : Array Word) (load : UInt16) (i : Nat) :
    successors words load i =
      words[i]?.elim [] fun w => (Successors.of (Instruction.decode w) i load).toList := by
  rw [successors]
  cases words[i]? with
  | none => rfl
  | some w => rfl

/-- The analysis refines the recursive procedure: there is one function that marks a
fresh candidate and then calls itself for the successors of the decoded word, and the
analysis ends with the marks and the order of its call for the entry. -/
theorem analyze_refines_recursion (words : Array Word) (entry : Nat) (load : UInt16) :
    ∃ visit : Marking → Int → Marking,
      (∀ m c, visit m c =
        if m.Fresh c then
          (words[c.toNat]?.elim [] fun w =>
            (Successors.of (Instruction.decode w) c.toNat load).toList).foldl visit
              (m.mark c.toNat)
        else m) ∧
      (∀ f : Marking → Int → Marking,
        (∀ m c, f m c =
          if m.Fresh c then
            (words[c.toNat]?.elim [] fun w =>
              (Successors.of (Instruction.decode w) c.toNat load).toList).foldl f
                (m.mark c.toNat)
          else m) →
        f = visit) ∧
      (analyze words entry load).order =
        (if entry < 2 ^ 63 then visit (.blank words.size) entry else .blank words.size).order ∧
      (analyze words entry load).reached =
        (if entry < 2 ^ 63 then visit (.blank words.size) entry else .blank words.size).reached := by
  simp only [← successors_eq_elim]
  refine ⟨Walk.visit (successors words load), Walk.visit_eq _, ?_, ?_, ?_⟩
  · exact fun f hf => Walk.eq_visit_of_equation hf
  · rw [← marking_finalWalk]
    rfl
  · rw [← marking_finalWalk]
    rfl

end Chip8.Reachability
