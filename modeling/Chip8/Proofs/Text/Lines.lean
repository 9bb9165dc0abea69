import Mathlib.Data.List.Basic

/-!
# Splitting at a separator

Where a part of a text does not hold the separator, the first separator is the end of that
part. A text of terminated lines can therefore be split in one way only.
-/

namespace Chip8.Lines

variable {α : Type} {a : α}

/-- The parts in front of a separator and behind it are determined by the whole. -/
theorem append_cons_inj {l l' r r' : List α} (h : a ∉ l) (h' : a ∉ l')
    (heq : l ++ a :: r = l' ++ a :: r') : l = l' ∧ r = r' := by
  induction l generalizing l' with
  | nil =>
      cases l' with
      | nil => exact ⟨rfl, (List.cons.inj heq).2⟩
      | cons b l' =>
          obtain ⟨rfl, -⟩ := List.cons.inj heq
          exact absurd List.mem_cons_self h'
  | cons b l ih =>
      cases l' with
      | nil =>
          obtain ⟨rfl, -⟩ := List.cons.inj heq
          exact absurd List.mem_cons_self h
      | cons b' l' =>
          obtain ⟨rfl, hrest⟩ := List.cons.inj heq
          obtain ⟨rfl, hr⟩ := ih (fun hm => h (List.mem_cons_of_mem b hm))
            (fun hm => h' (List.mem_cons_of_mem b hm)) hrest
          exact ⟨rfl, hr⟩

/-- Terminated lines that make the same text are the same lines. -/
theorem eq_of_flatMap_eq {lines lines' : List (List α)} (h : ∀ l ∈ lines, a ∉ l)
    (h' : ∀ l ∈ lines', a ∉ l)
    (heq : lines.flatMap (· ++ [a]) = lines'.flatMap (· ++ [a])) : lines = lines' := by
  induction lines generalizing lines' with
  | nil =>
      cases lines' with
      | nil => rfl
      | cons l' lines' => simp at heq
  | cons l lines ih =>
      cases lines' with
      | nil => simp at heq
      | cons l' lines' =>
          simp only [List.flatMap_cons, List.append_assoc, List.singleton_append] at heq
          obtain ⟨rfl, hrest⟩ := append_cons_inj (h l List.mem_cons_self)
            (h' l' List.mem_cons_self) heq
          rw [ih (fun m hm => h m (List.mem_cons_of_mem l hm))
            (fun m hm => h' m (List.mem_cons_of_mem l hm)) hrest]

/-- There is one separator for each terminated line. -/
theorem count_flatMap [DecidableEq α] {lines : List (List α)} (h : ∀ l ∈ lines, a ∉ l) :
    (lines.flatMap (· ++ [a])).count a = lines.length := by
  induction lines with
  | nil => rfl
  | cons l lines ih =>
      have hline : l.count a = 0 := List.count_eq_zero.mpr (h l List.mem_cons_self)
      rw [List.flatMap_cons, List.count_append, List.count_append, hline,
        ih fun m hm => h m (List.mem_cons_of_mem l hm), List.count_singleton_self, List.length_cons]
      omega

end Chip8.Lines
